import MappedSql.Parameter
import MappedSql.Text.Delimited

/-!
# Resolving placeholders

A placeholder stands between `#{` and `}` in the text of a statement. Resolving its content
gives a parameter. The type of the value is inferred from, in this order, a binding of the
property, the type of the whole argument where that is bound as one value, a cursor as
driver type, and the declared property of a record. Options then say the rest, and may set
another type. Compiling a text puts a marker in the place of every placeholder and lists
the parameters in the order of their markers.
-/

namespace MappedSql

structure Resolver where
  handlers : HandlerRegistry
  argumentType : ValueType
  bindings : Bindings

structure PositionalSql where
  sql : String
  parameters : List Parameter

namespace Placeholder

def delimiters : Text.Delimiters where
  opening := ['#', '\x7b']
  closing := ['\x7d']

def marker : String := "?"

/-- A parameter whose handler is still only named. -/
structure Draft where
  parameter : Parameter
  handlerName : Option String := none

def applyPart (content : String) (draft : Draft) (name value : String) : Except Error Draft :=
  let fail (fault : ConfigurationFault) : Except Error Draft := .error (.configuration fault)
  let parameter := draft.parameter
  match name with
  | "javaType" =>
    match ValueType.ofAlias? value with
    | some type => .ok { draft with parameter := { parameter with type } }
    | none => fail (.unknownType value)
  | "jdbcType" =>
    match Choice.ofName? value with
    | some type => .ok { draft with parameter := { parameter with driverType := some type } }
    | none => fail (.unknownOptionValue name value)
  | "mode" =>
    match Choice.ofName? value with
    | some mode => .ok { draft with parameter := { parameter with mode } }
    | none => fail (.unknownOptionValue name value)
  | "numericScale" =>
    match Text.unsigned? (Nat.pow 2 32) value.toList with
    | some n => .ok { draft with parameter := { parameter with scale := some n } }
    | none => fail (.invalidScale value)
  | "resultMap" => .ok { draft with parameter := { parameter with resultMap := some value } }
  | "typeHandler" => .ok { draft with handlerName := some value }
  | "jdbcTypeName" =>
    .ok { draft with parameter := { parameter with driverTypeName := some value } }
  | "property" => .ok draft
  | "expression" => fail .expressionParameter
  | name => fail (.unknownOption name content)

def applyParts (content : String) (draft : Draft) (parts : Parts) : Except Error Draft :=
  parts.foldlM (fun draft (name, value) => applyPart content draft name value) draft

end Placeholder

namespace Resolver

/-- The type of the value of a property, before any option sets it. -/
def inferType (r : Resolver) (property driverType : Option String) : ValueType :=
  match property.bind (Bindings.property? r.bindings), property with
  | some _, some name => (Bindings.propertyType? r.bindings name).getD .object
  | _, _ =>
    if r.handlers.handles r.argumentType then r.argumentType
    else if driverType.any (Text.sameAsciiLetters "CURSOR") then .cursor
    else
      match property, r.argumentType with
      | some name, .record type properties =>
        (RecordType.propertyType? { name := type, properties } name).getD .object
      | _, _ => .object

def handlerFor (r : Resolver) (draft : Placeholder.Draft) : Except Error (Option TypeHandler) :=
  match draft.handlerName with
  | some name => (r.handlers.resolve name).map some
  | none => .ok (r.handlers.forType? draft.parameter.type)

def resolve (r : Resolver) (content : String) : Except Error Parameter :=
  match Placeholder.parts content with
  | .error fault => .error (.configuration (.malformedPlaceholder content fault))
  | .ok parts => do
    let property := Keyed.get? parts "property"
    let type := r.inferType property (Keyed.get? parts "jdbcType")
    let draft ← Placeholder.applyParts content { parameter := { property, type } } parts
    return { draft.parameter with handler := ← r.handlerFor draft }

def compile (r : Resolver) (text : String) : Except Error PositionalSql := do
  let parameters ← (Placeholder.delimiters.contents text).mapM r.resolve
  return { sql := Placeholder.delimiters.replace (fun _ => Placeholder.marker) text, parameters }

end Resolver

end MappedSql
