import MappedSql.Error

/-!
# Type handlers

A type handler turns an argument into the value that the driver gets. Handlers are
registered under their names, and for record types that are bound as one value.
-/

namespace MappedSql

structure TypeHandler where
  name : String
  toDriver : Argument → Option DriverType → Except Error Value

namespace TypeHandler

/-- Binds single values as they are; no other argument has a value of its own. -/
def passThrough (a : Argument) (driverType : Option DriverType) : Except Error Value :=
  match a with
  | .null => .ok .null
  | .value v => .ok v
  | a => .error (.parameter (.unbindable a.type driverType))

def default : TypeHandler where
  name := "default"
  toDriver := passThrough

def jsonText : TypeHandler where
  name := "json"
  toDriver a _ :=
    match a with
    | .null => .ok .null
    | a => .ok (.text a.toJson.text)

def booleanAsInt : TypeHandler where
  name := "boolInt"
  toDriver a driverType :=
    match a with
    | .value (.boolean b) => .ok (.int (if b then 1 else 0))
    | a => passThrough a driverType

def timestampText : TypeHandler where
  name := "timestampText"
  toDriver a driverType :=
    match a with
    | .value (.timestamp t) => .ok (.text t.text)
    | a => passThrough a driverType

end TypeHandler

structure HandlerRegistry where
  byName : Keyed String TypeHandler
  byRecord : Keyed String TypeHandler

namespace HandlerRegistry

def register (r : HandlerRegistry) (h : TypeHandler) : HandlerRegistry :=
  { r with byName := Keyed.put r.byName h.name h }

def registerForRecord (r : HandlerRegistry) (type : String) (h : TypeHandler) : HandlerRegistry :=
  { r with byRecord := Keyed.put r.byRecord type h }

def standard : HandlerRegistry :=
  [TypeHandler.default, .jsonText, .booleanAsInt, .timestampText].foldl register ⟨[], []⟩

def resolve (r : HandlerRegistry) (name : String) : Except Error TypeHandler :=
  match Keyed.get? r.byName name with
  | some h => .ok h
  | none => .error (.configuration (.unknownHandler name))

def handles (r : HandlerRegistry) : ValueType → Bool
  | .record name _ => Keyed.contains r.byRecord name
  | type => type.isSimple

def forType? (r : HandlerRegistry) : ValueType → Option TypeHandler
  | .record name _ => Keyed.get? r.byRecord name
  | _ => none

end HandlerRegistry

end MappedSql
