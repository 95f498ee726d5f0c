import MappedSql.Executor.Batch
import MappedSql.Settings

/-!
# Execution strategies

How the statements of a session reach the driver, with the handles that are held between
two operations: none, a pool of open statements, or a queue of batches.
-/

namespace MappedSql

inductive Strategy
  | simple
  | reuse (pool : StatementPool)
  | batch (queue : BatchQueue)

namespace Strategy

variable {σ α : Type}

def ofType : ExecutorType → Strategy
  | .simple => .simple
  | .reuse => .reuse []
  | .batch => .batch []

def held : Strategy → List Handle
  | .simple => []
  | .reuse pool => pool.map (·.2)
  | .batch queue => queue.map (·.handle)

def dispatch (simple : Action (Channel σ) α) (reuse : Action (StatementPool × Channel σ) α)
    (batch : Action (BatchQueue × Channel σ) α) : Action (Strategy × Channel σ) α :=
  Action.ofOutcome fun (s, c) =>
    match s with
    | .simple =>
      let (result, c) := simple.outcome c
      (result, .simple, c)
    | .reuse pool =>
      let (result, pool, c) := reuse.outcome (pool, c)
      (result, .reuse pool, c)
    | .batch queue =>
      let (result, queue, c) := batch.outcome (queue, c)
      (result, .batch queue, c)

def update (e : Execution) (d : Driver σ) : Action (Strategy × Channel σ) UpdateCount :=
  dispatch (e.updateOnce d) (StatementPool.update e d) (BatchQueue.update e d)

def query (e : Execution) (d : Driver σ) : Action (Strategy × Channel σ) ResultSet :=
  dispatch (e.queryOnce d) (StatementPool.query e d) (BatchQueue.query e d)

def flush (d : Driver σ) : Action (Strategy × Channel σ) (List BatchResult) :=
  dispatch (return []) (do StatementPool.flush d; return []) (BatchQueue.flush d)

def discard (d : Driver σ) : Action (Strategy × Channel σ) Unit :=
  dispatch (return) (StatementPool.flush d) (BatchQueue.discard d)

end Strategy

end MappedSql
