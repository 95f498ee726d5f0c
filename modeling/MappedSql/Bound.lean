import MappedSql.Parameter

/-!
# Bound statements

A bound statement is what one execution sends to the driver: SQL with markers, and a
parameter for each marker. The value of a parameter is read from what was bound while the
template was rendered, and otherwise from the argument.
-/

namespace MappedSql

structure BoundStatement where
  sql : String
  parameters : List Parameter
  additional : Bindings := []
  argument : Argument

namespace BoundStatement

def hasAdditional (s : BoundStatement) (path : String) : Bool :=
  Entries.contains s.additional (Path.ofText path).head.name

/-- The argument that a property reads, before a handler converts it. An argument that is
bound as one value stands for all its properties, and a map has every property. -/
def read (s : BoundStatement) (handlers : HandlerRegistry) (property : String) :
    Except Error Argument :=
  if s.hasAdditional property then
    .ok ((Bindings.property? s.additional property).getD .null)
  else if s.argument.isNull then .ok .null
  else if handlers.handles s.argument.type then .ok s.argument
  else
    match s.argument.property? property, s.argument with
    | some value, _ => .ok value
    | none, .map _ => .ok .null
    | none, argument => .error (.parameter (.missingProperty property argument.type))

def valueOf (s : BoundStatement) (handlers : HandlerRegistry) (p : Parameter) :
    Except Error Argument :=
  match p.property with
  | none => .ok s.argument
  | some property => s.read handlers property

def convert (p : Parameter) (a : Argument) : Except Error Value :=
  let toDriver := (p.handler.getD .default).toDriver
  match toDriver a p.driverType with
  | .error (.parameter fault) => .error (.parameter (.notSet p.property fault))
  | outcome => outcome

/-- The value that a parameter is bound to. Parameters that are only written are null. -/
def bind (s : BoundStatement) (handlers : HandlerRegistry) (p : Parameter) :
    Except Error Value := do
  if p.mode = .output then return .null
  else convert p (← s.valueOf handlers p)

def values (s : BoundStatement) (handlers : HandlerRegistry) : Except Error (List Value) :=
  s.parameters.mapM (s.bind handlers)

end BoundStatement

end MappedSql
