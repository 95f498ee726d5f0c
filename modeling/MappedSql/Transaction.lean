import MappedSql.Driver

/-!
# Transactions

A transaction lets a driver be used until it is closed, and bounds the time of every
statement.
-/

namespace MappedSql

structure Transaction (σ : Type) where
  driver : Driver σ
  timeout : Option Timeout := none
  isClosed : Bool := false

namespace Transaction

variable {σ : Type}

def connection (t : Transaction σ) : Action σ (Driver σ) := do
  if t.isClosed then throw (.execution .transactionClosed) else return t.driver

def commit (t : Transaction σ) : Action σ Unit := do
  (← t.connection).commit

def rollback (t : Transaction σ) : Action σ Unit := do
  (← t.connection).rollback

def close (t : Transaction σ) : Transaction σ :=
  { t with isClosed := true }

def limit (t : Transaction σ) : Option Timeout → Option Timeout
  | none => t.timeout
  | some n => some (match t.timeout with
    | some m => min n m
    | none => n)

end Transaction

end MappedSql
