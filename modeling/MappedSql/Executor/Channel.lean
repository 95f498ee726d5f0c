import MappedSql.Statement

/-!
# Channels

A channel is what the statements of a session reach: the database behind the driver, and a
journal of the keys that were to be generated. Work on a handle is always followed by
closing it.
-/

namespace MappedSql

structure KeyEvent where
  statement : String
  handle : Handle
  request : KeyRequest
  deriving Repr

/-- The argument that keys are asked for; for a batch, the list of its arguments. -/
def KeyEvent.argument (event : KeyEvent) : Argument :=
  match event.request with
  | .update argument => argument
  | .batch arguments => .list arguments

structure Channel (σ : Type) where
  database : σ
  journal : List KeyEvent := []

namespace Channel

variable {σ α : Type}

def drive (a : Action σ α) : Action (Channel σ) α :=
  a.within (·.database) fun database c => { c with database }

/-- Notes that keys are to be generated for a statement; gives the number of the call. -/
def record (event : KeyEvent) : Action (Channel σ) Nat := do
  modify fun c => { c with journal := c.journal ++ [event] }
  return (← get).journal.countP (·.statement == event.statement)

def generateKeys (generator : Option KeyGenerator) (event : KeyEvent) :
    Action (Channel σ) Unit := do
  if let some generate := generator then
    let call ← record event
    Action.ofExcept (generate call event.handle event.request)

/-- Closes a handle. A failure to do so is of no consequence. -/
def release (d : Driver σ) (h : Handle) : Action (Channel σ) Unit := do
  let _ ← (drive (d.close h)).attempt
  return

/-- Works on a handle, and closes it however the work ends. A failure of the work counts
for more than a failure to close. -/
def withHandle (d : Driver σ) (h : Handle) (work : Action (Channel σ) α) :
    Action (Channel σ) α := do
  let outcome ← work.attempt
  let closed ← (drive (d.close h)).attempt
  let value ← Action.ofExcept outcome
  Action.ofExcept closed
  return value

end Channel

inductive UpdateCount
  | affected (rows : Nat)
  | pending
  deriving DecidableEq, Repr

structure Execution where
  statement : Statement
  bound : BoundStatement
  handlers : HandlerRegistry
  timeout : Option Timeout

namespace Execution

variable {σ : Type}

def values (e : Execution) : Action (Channel σ) (List Value) :=
  Action.ofExcept (e.bound.values e.handlers)

def prepare (e : Execution) (d : Driver σ) : Action (Channel σ) Handle :=
  Channel.drive (d.prepare e.bound.sql e.timeout)

def updateOn (e : Execution) (d : Driver σ) (h : Handle) (values : List Value) :
    Action (Channel σ) UpdateCount := do
  Channel.drive (d.bind h values)
  let rows ← Channel.drive (d.executeUpdate h)
  Channel.generateKeys e.statement.keyGenerator
    { statement := e.statement.id, handle := h, request := .update e.bound.argument }
  return .affected rows

def queryOn (d : Driver σ) (h : Handle) (values : List Value) : Action (Channel σ) ResultSet := do
  Channel.drive (d.bind h values)
  Channel.drive (d.executeQuery h)

def updateOnce (e : Execution) (d : Driver σ) : Action (Channel σ) UpdateCount := do
  let values ← e.values
  let h ← e.prepare d
  Channel.withHandle d h (e.updateOn d h values)

def queryOnce (e : Execution) (d : Driver σ) : Action (Channel σ) ResultSet := do
  let values ← e.values
  let h ← e.prepare d
  Channel.withHandle d h (queryOn d h values)

end Execution

end MappedSql
