import MappedSql.Executor.Channel

/-!
# Statement pools

A pool keeps one statement open for each SQL text, until the work is flushed. A statement
whose execution fails leaves the pool and is closed. The timeout of a statement is the one
that it was first prepared with.
-/

namespace MappedSql

abbrev StatementPool := Keyed String Handle

namespace StatementPool

variable {σ α : Type}

def handleFor (e : Execution) (d : Driver σ) : Action (StatementPool × Channel σ) Handle := do
  match Keyed.get? (← get).1 e.bound.sql with
  | some h => return h
  | none =>
    let h ← (e.prepare d).onSecond
    modify fun (pool, c) => (Keyed.put pool e.bound.sql h, c)
    return h

def drop (d : Driver σ) (sql : String) : Action (StatementPool × Channel σ) Unit := do
  if let some h := Keyed.get? (← get).1 sql then
    modify fun (pool, c) => (Keyed.erase pool sql, c)
    (Channel.release d h).onSecond

def run (e : Execution) (d : Driver σ) (work : Handle → Action (Channel σ) α) :
    Action (StatementPool × Channel σ) α := do
  let h ← handleFor e d
  match ← (work h).onSecond.attempt with
  | .ok value => return value
  | .error cause =>
    drop d e.bound.sql
    throw cause

def update (e : Execution) (d : Driver σ) : Action (StatementPool × Channel σ) UpdateCount := do
  let values ← e.values.onSecond
  run e d fun h => e.updateOn d h values

def query (e : Execution) (d : Driver σ) : Action (StatementPool × Channel σ) ResultSet := do
  let values ← e.values.onSecond
  run e d fun h => Execution.queryOn d h values

def releaseAll (d : Driver σ) : List Handle → Action (Channel σ) Unit
  | [] => return
  | h :: rest => do
    Channel.release d h
    releaseAll d rest

def flush (d : Driver σ) : Action (StatementPool × Channel σ) Unit := do
  let handles := (← get).1.map (·.2)
  modify fun (_, c) => ([], c)
  (releaseAll d handles).onSecond

end StatementPool

end MappedSql
