import MappedSql.Action
import MappedSql.ResultSet

/-!
# Drivers

A driver prepares statements, binds values to their markers and runs them. A statement that
was prepared is referred to by a handle until it is closed. What a driver does is seen only
through the state it works on, such as a database.
-/

namespace MappedSql

structure Handle where
  number : Nat
  deriving DecidableEq, Repr, Inhabited

def Handle.text (h : Handle) : String :=
  "stmt#" ++ toString h.number

/-- Timeouts are in milliseconds. -/
abbrev Timeout := Nat

structure Driver (σ : Type) where
  prepare : String → Option Timeout → Action σ Handle
  bind : Handle → List Value → Action σ Unit
  addBatch : Handle → Action σ Unit
  executeUpdate : Handle → Action σ Nat
  /-- Runs all items of a batch, with one count for each. -/
  executeBatch : Handle → Action σ (List Nat)
  executeQuery : Handle → Action σ ResultSet
  close : Handle → Action σ Unit
  commit : Action σ Unit
  rollback : Action σ Unit

namespace Driver

variable {σ τ : Type}

def within (get : τ → σ) (set : σ → τ → τ) (d : Driver σ) : Driver τ where
  prepare sql timeout := (d.prepare sql timeout).within get set
  bind h values := (d.bind h values).within get set
  addBatch h := (d.addBatch h).within get set
  executeUpdate h := (d.executeUpdate h).within get set
  executeBatch h := (d.executeBatch h).within get set
  executeQuery h := (d.executeQuery h).within get set
  close h := (d.close h).within get set
  commit := d.commit.within get set
  rollback := d.rollback.within get set

def atIndex [Inhabited σ] (i : Nat) (d : Driver σ) : Driver (List σ) :=
  d.within (·.getD i default) fun s states => states.set i s

end Driver

end MappedSql
