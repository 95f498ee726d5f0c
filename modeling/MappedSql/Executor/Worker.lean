import MappedSql.Configuration
import MappedSql.Executor.Strategy
import MappedSql.Transaction

/-!
# Workers

A worker executes statements inside one transaction. It remembers the results of its own
queries for as long as nothing changes, which is its local cache. Once its transaction is
closed it refuses all work.
-/

namespace MappedSql

structure Worker (σ : Type) where
  configuration : Configuration
  transaction : Transaction σ
  strategy : Strategy
  localCache : Keyed CacheKey ResultSet := []

abbrev Work (σ : Type) := Action (Worker σ × Channel σ)

namespace Worker

variable {σ α : Type}

def start (c : Configuration) (t : Transaction σ) (type : ExecutorType) : Worker σ where
  configuration := c
  transaction := t
  strategy := .ofType type

def isClosed (w : Worker σ) : Bool :=
  w.transaction.isClosed

def current : Work σ (Worker σ) :=
  return (← get).1

def change (f : Worker σ → Worker σ) : Work σ Unit :=
  modify fun (w, c) => (f w, c)

def ensureOpen : Work σ Unit := do
  if (← current).isClosed then throw .executorClosed

def onStrategy (a : Action (Strategy × Channel σ) α) : Work σ α :=
  a.within (fun (w, c) => (w.strategy, c)) fun (strategy, c) (w, _) => ({ w with strategy }, c)

def onDatabase (a : Action σ α) : Work σ α :=
  (Channel.drive a).onSecond

def forget : Work σ Unit :=
  change fun w => { w with localCache := [] }

def timeoutFor (w : Worker σ) (s : Statement) : Option Timeout :=
  w.transaction.limit (s.timeout.or w.configuration.statementTimeout)

def execution (w : Worker σ) (s : Statement) (bound : BoundStatement) : Execution where
  statement := s
  bound := bound
  handlers := w.configuration.handlers
  timeout := w.timeoutFor s

def update (s : Statement) (argument : Argument) : Work σ UpdateCount := do
  ensureOpen
  forget
  let bound ← Action.ofExcept (s.bound argument)
  let w ← current
  let d ← onDatabase w.transaction.connection
  onStrategy (Strategy.update (w.execution s bound) d)

def fetch (s : Statement) (bounds : RowBounds) (bound : BoundStatement) : Work σ ResultSet := do
  let w ← current
  let d ← onDatabase w.transaction.connection
  let rows ← onStrategy (Strategy.query (w.execution s bound) d)
  return rows.paginate bounds

def parameterComponents (handlers : HandlerRegistry) (bound : BoundStatement) :
    Except Error (List KeyComponent) := do
  let read := bound.parameters.filter (·.mode != .output)
  return (← read.mapM (bound.valueOf handlers)).map KeyComponent.ofArgument

def cacheKey (c : Configuration) (s : Statement) (bounds : RowBounds) (bound : BoundStatement) :
    Except Error CacheKey := do
  let parameters ← parameterComponents c.handlers bound
  return CacheKey.ofComponents
    ([.text s.id, .ofNat bounds.offset, .ofNat bounds.limit, .text bound.sql] ++ parameters
      ++ c.environmentId.toList.map .text)

def key (s : Statement) (bounds : RowBounds) (bound : BoundStatement) : Work σ CacheKey := do
  ensureOpen
  Action.ofExcept (cacheKey (← current).configuration s bounds bound)

def forgetFor (s : Statement) : Work σ Unit := do
  if s.flushesCache then forget

def queryBound (s : Statement) (bounds : RowBounds) (key : CacheKey) (bound : BoundStatement) :
    Work σ ResultSet := do
  ensureOpen
  forgetFor s
  match Keyed.get? (← current).localCache key with
  | some hit => return hit
  | none =>
    let rows ← fetch s bounds bound
    change fun w => { w with localCache := Keyed.put w.localCache key rows }
    if (← current).configuration.localCacheScope = .statement then forget
    return rows

/-- The rows of a query in order, with their numbers, up to the first that is enough. They
are neither taken from a cache nor put into one. -/
def handOut (s : Statement) (argument : Argument) (bounds : RowBounds)
    (enough : Nat → Row → Bool) : Work σ (List (Nat × Row)) := do
  ensureOpen
  forgetFor s
  let bound ← Action.ofExcept (s.bound argument)
  let rows ← fetch s bounds bound
  return ResultSet.handOut enough 0 rows.rows

def flush : Work σ (List BatchResult) := do
  ensureOpen
  let d ← onDatabase (← current).transaction.connection
  onStrategy (Strategy.flush d)

def commit (required : Bool) : Work σ Unit := do
  ensureOpen
  forget
  let _ ← flush
  if required then onDatabase (← current).transaction.commit

/-- Gives up what waits, and rolls the transaction back where that is required. The first
failure counts, and keeps nothing from being done. -/
def rollbackOpen (required : Bool) : Work σ Unit := do
  forget
  let t := (← current).transaction
  let discarded ← (do
    let d ← onDatabase t.connection
    onStrategy (Strategy.discard d)).attempt
  let rolledBack ← (if required then onDatabase t.rollback else pure ()).attempt
  Action.ofExcept discarded
  Action.ofExcept rolledBack

def rollback (required : Bool) : Work σ Unit := do
  unless (← current).isClosed do rollbackOpen required

def clearLocalCache : Work σ Unit := do
  unless (← current).isClosed do forget

def close (force : Bool) : Work σ Unit := do
  unless (← current).isClosed do
    let _ ← (rollback force).attempt
    change fun w => { w with transaction := w.transaction.close, localCache := [] }

end Worker

end MappedSql
