import MappedSql.Driver
import MappedSql.Entries

/-!
# A scripted driver

A driver without a database. It records what it is asked to do, reports one row for every
update, answers queries as its script says, and fails where the script says so.
-/

namespace MappedSql

/-- What a scripted driver answers, and which of its calls fail; calls are counted from one. -/
structure Script where
  results : Keyed String ResultSet := []
  /-- The batch that fails, and after how many of its items. -/
  failBatch : Option (Nat × Nat) := none
  failAddBatch : Option Nat := none
  failUpdate : Option Nat := none
  failQuery : Option Nat := none

structure ScriptedStatement where
  sql : String
  values : List Value := []
  batch : List (List Value) := []
  deriving Repr

structure Recording where
  statements : Keyed Handle ScriptedStatement := []
  prepared : List (String × Option Timeout) := []
  closed : Nat := 0
  updates : List (String × List Value) := []
  queries : List (String × List Value) := []
  batches : List (String × List (List Value)) := []
  addBatchCalls : Nat := 0
  updateCalls : Nat := 0
  queryCalls : Nat := 0
  batchCalls : Nat := 0
  commits : Nat := 0
  rollbacks : Nat := 0
  deriving Repr, Inhabited

namespace Recording

def statement (h : Handle) : Action Recording ScriptedStatement := do
  match Keyed.get? (← get).statements h with
  | some statement => return statement
  | none => throw (.execution (.reported ("Unknown statement handle " ++ h.text)))

def setStatement (h : Handle) (s : ScriptedStatement) : Action Recording Unit :=
  modify fun r => { r with statements := Keyed.put r.statements h s }

def failAt (planned : Option Nat) (operation : String) (call : Nat) : Action Recording Unit := do
  if planned = some call then
    throw (.execution (.reported ("mock failure in " ++ operation ++ " call " ++ toString call)))

def prepare (sql : String) (timeout : Option Timeout) : Action Recording Handle := do
  let h : Handle := ⟨(← get).prepared.length + 1⟩
  modify fun r => { r with prepared := r.prepared ++ [(sql, timeout)] }
  setStatement h { sql }
  return h

def bind (h : Handle) (values : List Value) : Action Recording Unit := do
  setStatement h { ← statement h with values }

def addBatch (script : Script) (h : Handle) : Action Recording Unit := do
  modify fun r => { r with addBatchCalls := r.addBatchCalls + 1 }
  failAt script.failAddBatch "add_batch" (← get).addBatchCalls
  let s ← statement h
  setStatement h { s with values := [], batch := s.batch ++ [s.values] }

def executeUpdate (script : Script) (h : Handle) : Action Recording Nat := do
  modify fun r => { r with updateCalls := r.updateCalls + 1 }
  failAt script.failUpdate "execute_update" (← get).updateCalls
  let s ← statement h
  modify fun r => { r with updates := r.updates ++ [(s.sql, s.values)] }
  return 1

def executeBatch (script : Script) (h : Handle) : Action Recording (List Nat) := do
  modify fun r => { r with batchCalls := r.batchCalls + 1 }
  let call := (← get).batchCalls
  let s ← statement h
  setStatement h { s with batch := [] }
  let counts (n : Nat) : List Nat := List.replicate n 1
  match script.failBatch with
  | some (failing, succeeded) =>
    if failing = call then
      throw (.batchUpdate ("mock failure in batch call " ++ toString call)
        (counts (min succeeded s.batch.length)))
  | none => pure ()
  modify fun r => { r with batches := r.batches ++ [(s.sql, s.batch)] }
  return counts s.batch.length

def executeQuery (script : Script) (h : Handle) : Action Recording ResultSet := do
  modify fun r => { r with queryCalls := r.queryCalls + 1 }
  failAt script.failQuery "execute_query" (← get).queryCalls
  let s ← statement h
  modify fun r => { r with queries := r.queries ++ [(s.sql, s.values)] }
  return (Keyed.get? script.results s.sql).getD {}

def close (h : Handle) : Action Recording Unit :=
  modify fun r =>
    if Keyed.contains r.statements h then
      { r with statements := Keyed.erase r.statements h, closed := r.closed + 1 }
    else r

end Recording

def Script.driver (script : Script) : Driver Recording where
  prepare := Recording.prepare
  bind := Recording.bind
  addBatch := Recording.addBatch script
  executeUpdate := Recording.executeUpdate script
  executeBatch := Recording.executeBatch script
  executeQuery := Recording.executeQuery script
  close := Recording.close
  commit := modify fun r => { r with commits := r.commits + 1 }
  rollback := modify fun r => { r with rollbacks := r.rollbacks + 1 }

end MappedSql
