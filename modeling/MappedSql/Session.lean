import MappedSql.Executor

/-!
# Sessions

A session is one unit of work on an executor, and names statements by their ids. It is dirty
when an update was asked for since the last commit or rollback. Only then, or when it is
forced, does a commit or a rollback reach the database.
-/

namespace MappedSql

structure Session (σ : Type) where
  executor : Executor σ
  isDirty : Bool := false

abbrev SessionCall (σ : Type) := Action (Session σ × World σ)

namespace Session

variable {σ α : Type}

def start (c : Configuration) (t : Transaction σ) (type : ExecutorType) : Session σ where
  executor := .start c t type

def configuration (s : Session σ) : Configuration :=
  s.executor.worker.configuration

def isClosed (s : Session σ) : Bool :=
  s.executor.isClosed

def onExecutor (a : Execute σ α) : SessionCall σ α :=
  a.within (fun (s, w) => (s.executor, w)) fun (executor, w) (s, _) => ({ s with executor }, w)

def setDirty (isDirty : Bool) : SessionCall σ Unit :=
  modify fun (s, w) => ({ s with isDirty }, w)

def statement (id : String) : SessionCall σ Statement := do
  Action.ofExcept ((← get).1.configuration.statement id)

def isRequired (force : Bool) : SessionCall σ Bool :=
  return force || (← get).1.isDirty

def selectList (id : String) (argument : Argument) (bounds : RowBounds) :
    SessionCall σ ResultSet := do
  let s ← statement id
  onExecutor (Executor.query s argument bounds)

def selectOne (id : String) (argument : Argument) : SessionCall σ (Option Row) := do
  let rows ← selectList id argument .unbounded
  match rows.rows with
  | [] => return none
  | [row] => return some row
  | rows => throw (.execution (.tooManyRows rows.length))

def handOut (id : String) (argument : Argument) (bounds : RowBounds)
    (enough : Nat → Row → Bool) : SessionCall σ (List (Nat × Row)) := do
  let s ← statement id
  onExecutor (Executor.handOut s argument bounds enough)

/-- Executes an update. The session is dirty from then on, even when the update fails. -/
def update (id : String) (argument : Argument) : SessionCall σ UpdateCount := do
  let s ← statement id
  setDirty true
  onExecutor (Executor.update s argument)

def flush : SessionCall σ (List BatchResult) :=
  onExecutor Executor.flush

def commit (force : Bool) : SessionCall σ Unit := do
  onExecutor (Executor.commit (← isRequired force))
  setDirty false

def rollback (force : Bool) : SessionCall σ Unit := do
  onExecutor (Executor.rollback (← isRequired force))
  setDirty false

def clearCache : SessionCall σ Unit :=
  onExecutor Executor.clearLocalCache

def close : SessionCall σ Unit := do
  onExecutor (Executor.close (← isRequired false))
  setDirty false

def drop : SessionCall σ Unit := do
  unless (← get).1.isClosed do close

end Session

end MappedSql
