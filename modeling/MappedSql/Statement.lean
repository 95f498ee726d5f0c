import MappedSql.Cache.Pool
import MappedSql.Driver
import MappedSql.Template

/-!
# Mapped statements

A mapped statement is a template with an id and with what an executor has to know about
it: which command it is, which cache its results go through, and what happens with the
keys that an insert generates.
-/

namespace MappedSql

inductive CommandKind
  | select
  | insert
  | update
  | delete
  deriving DecidableEq, Repr, Inhabited

instance : Choice CommandKind where
  all := [.select, .insert, .update, .delete]
  name
    | .select => "select"
    | .insert => "insert"
    | .update => "update"
    | .delete => "delete"

/-- How a statement is sent to the driver. Only calls of procedures may write parameters. -/
inductive StatementKind
  | plain
  | prepared
  | callable
  deriving DecidableEq, Repr, Inhabited

instance : Choice StatementKind where
  all := [.plain, .prepared, .callable]
  name
    | .plain => "plain"
    | .prepared => "prepared"
    | .callable => "callable"

/-- What keys are asked for: a single update, or all updates of a batch at once. -/
inductive KeyRequest
  | update (argument : Argument)
  | batch (arguments : List Argument)
  deriving Repr

/-- What is done after an update or a batch, while its handle is open: it may fail. The calls
for one statement are counted from one. -/
abbrev KeyGenerator := Nat → Handle → KeyRequest → Except Error Unit

structure Statement where
  id : String
  template : Template
  command : CommandKind
  kind : StatementKind := .prepared
  cache : Option CacheRef := none
  flushesCache : Bool := command != .select
  usesCache : Bool := command == .select
  keyGenerator : Option KeyGenerator := none
  /-- Whether the key generator is called once for a batch. Else it is called for each update. -/
  keysAtOnce : Bool := false
  timeout : Option Timeout := none
  resultMaps : List String := []

namespace Statement

def checkModes (s : Statement) (parameters : List Parameter) : Except Error Unit :=
  if s.kind = .callable then .ok ()
  else
    match parameters.find? (·.mode.isOutput) with
    | some p => .error (.configuration (.outputParameter p.property s.id p.mode))
    | none => .ok ()

def checked (s : Statement) : Except Error Statement := do
  match s.template with
  | .compiled sql => s.checkModes sql.parameters
  | .dynamic .. => pure ()
  return s

def bound (s : Statement) (argument : Argument) : Except Error BoundStatement := do
  let bound ← s.template.bound argument
  s.checkModes bound.parameters
  return bound

end Statement

end MappedSql
