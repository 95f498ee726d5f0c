import MappedSql.Executor.Pool

/-!
# Batches

Updates wait in groups until they are flushed. An update joins the last group when it is of
the same statement and has the same SQL, and else it opens a new group. A flush runs the
groups in order and stops at the first that fails; all handles are closed in any case.
-/

namespace MappedSql

structure BatchGroup where
  handle : Handle
  keyGenerator : Option KeyGenerator
  keysAtOnce : Bool
  result : BatchResult

/-- The groups that wait, in the order in which they were opened. -/
abbrev BatchQueue := List BatchGroup

namespace BatchGroup

variable {σ : Type}

def continuedBy (g : BatchGroup) (e : Execution) : Bool :=
  g.result.sql == e.bound.sql && g.result.statement == e.statement.id

def push (g : BatchGroup) (argument : Argument) : BatchGroup :=
  { g with result := { g.result with arguments := g.result.arguments ++ [argument] } }

def opened (e : Execution) (h : Handle) : BatchGroup where
  handle := h
  keyGenerator := e.statement.keyGenerator
  keysAtOnce := e.statement.keysAtOnce
  result :=
    { statement := e.statement.id, sql := e.bound.sql, arguments := [e.bound.argument],
      counts := [] }

def requestKeys (g : BatchGroup) : List KeyRequest → Action (Channel σ) Unit
  | [] => return
  | request :: rest => do
    Channel.generateKeys g.keyGenerator
      { statement := g.result.statement, handle := g.handle, request }
    g.requestKeys rest

/-- Asks for the keys of all updates at once, or for those of one after the other. -/
def generateKeys (g : BatchGroup) (arguments : List Argument) : Action (Channel σ) Unit :=
  g.requestKeys (if g.keysAtOnce then [.batch arguments] else arguments.map .update)

/-- Runs a group and then generates its keys. How it ended comes with the counts that are
known: all of them once the batch has run, and those of a driver that gave up half way. -/
def run (g : BatchGroup) (d : Driver σ) :
    Action (Channel σ) (Except Error Unit × BatchResult) := do
  let known (counts : List Nat) : BatchResult := { g.result with counts }
  let knownAt (cause : Error) (counts : List Nat) : BatchResult :=
    match cause with
    | .batchUpdate _ counts => known counts
    | _ => known counts
  match ← (Channel.drive (d.executeBatch g.handle)).attempt with
  | .error cause => return (.error cause, knownAt cause [])
  | .ok counts =>
    match ← (g.generateKeys g.result.arguments).attempt with
    | .error cause => return (.error cause, knownAt cause counts)
    | .ok () => return (.ok (), known counts)

end BatchGroup

namespace BatchQueue

variable {σ : Type}

def addItem (d : Driver σ) (h : Handle) (values : List Value) : Action (Channel σ) Unit := do
  Channel.drive (d.bind h values)
  Channel.drive (d.addBatch h)

def openGroup (e : Execution) (d : Driver σ) (values : List Value) :
    Action (Channel σ) BatchGroup := do
  let h ← e.prepare d
  match ← (addItem d h values).attempt with
  | .ok () => return BatchGroup.opened e h
  | .error cause =>
    Channel.release d h
    throw cause

def update (e : Execution) (d : Driver σ) : Action (BatchQueue × Channel σ) UpdateCount := do
  let values ← e.values.onSecond
  match (← get).1.getLast?.filter (·.continuedBy e) with
  | some g =>
    (addItem d g.handle values).onSecond
    modify fun (queue, c) => (queue.dropLast ++ [g.push e.bound.argument], c)
    return .pending
  | none =>
    let g ← (openGroup e d values).onSecond
    modify fun (queue, c) => (queue ++ [g], c)
    return .pending

/-- Runs groups in order; `completed` are the results of those before. -/
def runAll (d : Driver σ) (completed : List BatchResult) :
    BatchQueue → Action (Channel σ) (List BatchResult)
  | [] => return completed
  | g :: rest => do
    let (outcome, result) ← g.run d
    Channel.release d g.handle
    match outcome with
    | .ok () => runAll d (completed ++ [result]) rest
    | .error cause =>
      StatementPool.releaseAll d (rest.map (·.handle))
      throw (.batchFailed completed.length completed result cause)

/-- Runs all groups that wait. None waits any longer, even when one fails. -/
def flush (d : Driver σ) : Action (BatchQueue × Channel σ) (List BatchResult) := do
  let queue := (← get).1
  modify fun (_, c) => ([], c)
  (runAll d [] queue).onSecond

def discard (d : Driver σ) : Action (BatchQueue × Channel σ) Unit := do
  let queue := (← get).1
  modify fun (_, c) => ([], c)
  (StatementPool.releaseAll d (queue.map (·.handle))).onSecond

def query (e : Execution) (d : Driver σ) : Action (BatchQueue × Channel σ) ResultSet := do
  let _ ← flush d
  (e.queryOnce d).onSecond

end BatchQueue

end MappedSql
