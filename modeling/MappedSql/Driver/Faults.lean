import MappedSql.Choice
import MappedSql.Driver
import MappedSql.Entries

/-!
# Faults

A driver can be made to fail at chosen calls. The calls of each operation are counted from
one, and a call that fails does not reach the driver.
-/

namespace MappedSql

inductive Operation
  | prepare
  | bind
  | addBatch
  | executeUpdate
  | executeBatch
  | executeQuery
  | close
  | commit
  | rollback
  deriving DecidableEq, Repr

instance : Choice Operation where
  all := [.prepare, .bind, .addBatch, .executeUpdate, .executeBatch, .executeQuery, .close,
    .commit, .rollback]
  name
    | .prepare => "prepare"
    | .bind => "bind_parameters"
    | .addBatch => "add_batch"
    | .executeUpdate => "execute_update"
    | .executeBatch => "execute_batch"
    | .executeQuery => "execute_query"
    | .close => "close"
    | .commit => "commit"
    | .rollback => "rollback"

/-- The calls that fail, for each operation. -/
abbrev Faults := List (Operation × List Nat)

structure Counted (σ : Type) where
  inner : σ
  calls : Keyed Operation Nat := []
  deriving Repr

instance {σ : Type} [Inhabited σ] : Inhabited (Counted σ) := ⟨{ inner := default }⟩

namespace Faults

variable {σ α : Type}

def guard (faults : Faults) (operation : Operation) (a : Action σ α) : Action (Counted σ) α := do
  let call := (Keyed.get? (← get).calls operation).getD 0 + 1
  modify fun c => { c with calls := Keyed.put c.calls operation call }
  if faults.any fun (failing, calls) => failing == operation && calls.contains call then
    throw (.execution (.reported
      ("fault in " ++ Choice.name operation ++ " call " ++ toString call)))
  a.within (·.inner) fun inner c => { c with inner }

def around (faults : Faults) (d : Driver σ) : Driver (Counted σ) where
  prepare sql timeout := faults.guard .prepare (d.prepare sql timeout)
  bind h values := faults.guard .bind (d.bind h values)
  addBatch h := faults.guard .addBatch (d.addBatch h)
  executeUpdate h := faults.guard .executeUpdate (d.executeUpdate h)
  executeBatch h := faults.guard .executeBatch (d.executeBatch h)
  executeQuery h := faults.guard .executeQuery (d.executeQuery h)
  close h := faults.guard .close (d.close h)
  commit := faults.guard .commit d.commit
  rollback := faults.guard .rollback d.rollback

end Faults

end MappedSql
