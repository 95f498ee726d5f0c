import MappedSql.Entries
import MappedSql.Path
import MappedSql.Value

/-!
# Arguments

An argument is what a caller hands to a statement: nothing, one value, or a collection of
arguments. A record has a declared type; a property that is declared but not set reads as
null. Paths lead into maps, records and lists.

`Bindings` are arguments under names. They resolve a path by its first name.
-/

namespace MappedSql

inductive Argument
  | null
  | value (value : Value)
  | list (items : List Argument)
  | map (entries : List (String × Argument))
  | record (type : RecordType) (fields : List (String × Argument))
  deriving Repr, Inhabited

namespace Argument

def ofInt (n : Int64) : Argument := .value (.int n)
def ofText (s : String) : Argument := .value (.text s)
def ofBool (b : Bool) : Argument := .value (.boolean b)

def isNull : Argument → Bool
  | .null | .value .null => true
  | _ => false

def isSimple : Argument → Bool
  | .null | .value _ => true
  | _ => false

def value? : Argument → Option Value
  | .value v => some v
  | _ => none

def type : Argument → ValueType
  | .null => .object
  | .value v => v.type
  | .list _ => .list
  | .map _ => .map
  | .record type _ => type.toValueType

mutual
/-- An argument as JSON; a record has the fields that are set. -/
def toJson : Argument → Json
  | .null => .null
  | .value v => v.toJson
  | .list items => .array (itemsToJson items)
  | .map entries => .object (entriesToJson entries)
  | .record _ fields => .object (entriesToJson fields)
def itemsToJson : List Argument → List Json
  | [] => []
  | item :: rest => toJson item :: itemsToJson rest
def entriesToJson : List (String × Argument) → List (String × Json)
  | [] => []
  | (name, entry) :: rest => (name, toJson entry) :: entriesToJson rest
end

mutual
def same : Argument → Argument → Bool
  | .null, .null => true
  | .value a, .value b => a.same b
  | .list a, .list b => sameItems a b
  | .map a, .map b => sameEntries a b
  | .record s a, .record t b => s == t && sameEntries a b
  | _, _ => false
def sameItems : List Argument → List Argument → Bool
  | [], [] => true
  | a :: as, b :: bs => same a b && sameItems as bs
  | _, _ => false
def sameEntries : List (String × Argument) → List (String × Argument) → Bool
  | [], [] => true
  | (m, a) :: as, (n, b) :: bs => m == n && same a b && sameEntries as bs
  | _, _ => false
end

/-! ### Paths -/

/-- A property by name: an entry of a map, or a field of a record, which reads as null when
it is declared and not set. -/
def get? (a : Argument) (name : String) : Option Argument :=
  match a with
  | .map entries => Entries.get? entries name
  | .record type fields =>
    (Entries.get? fields name).or ((type.declared? name).map fun _ => .null)
  | _ => none

def at? (a : Argument) (index : String) : Option Argument :=
  match a with
  | .list items => do items[← Text.unsigned? (Nat.pow 2 64) (Text.trim index.toList)]?
  | .map entries => Entries.get? entries index
  | _ => none

def atIndex? (a : Argument) : Option String → Option Argument
  | none => some a
  | some index => a.at? index

def step? (a : Argument) (s : Step) : Option Argument := do
  (← if s.name.isEmpty then some a else a.get? s.name).atIndex? s.index

def along? (a : Argument) (steps : List Step) : Option Argument :=
  steps.foldlM step? a

def property? (a : Argument) (path : String) : Option Argument :=
  a.along? (Path.ofText path).steps

/-- The type at the end of steps: the declared type, else the type of the value there. -/
def typeAlong? (a : Argument) (first : Step) (rest : List Step) : Option ValueType :=
  let declared := match a with
    | .record type _ => type.typeAlong? first rest
    | _ => none
  declared.or ((a.along? (first :: rest)).map type)

def propertyType? (a : Argument) (path : String) : Option ValueType :=
  let p := Path.ofText path
  a.typeAlong? p.head p.tail

def elements? : Argument → Option (List (Argument × Argument))
  | .list items => some (items.zipIdx.map fun (item, i) => (ofInt (Int64.ofNat i), item))
  | .map entries => some (entries.map fun (name, entry) => (ofText name, entry))
  | _ => none

def isTruthy : Argument → Bool
  | .null => false
  | .value v =>
    match v with
    | .null => false
    | .boolean b => b
    | .int n => n != 0
    | .double d => !d.isZero
    | .text s => !s.isEmpty
    | .blob bytes => !bytes.isEmpty
    | .json .null => false
    | .json _ => true
    | .timestamp _ => true
  | .list items => !items.isEmpty
  | .map entries => !entries.isEmpty
  | .record _ _ => true

end Argument

abbrev Bindings := Entries Argument

namespace Bindings

def property? (b : Bindings) (path : String) : Option Argument := do
  let p := Path.ofText path
  let root ← Entries.get? b p.head.name
  (← root.atIndex? p.head.index).along? p.tail

def propertyType? (b : Bindings) (path : String) : Option ValueType := do
  let p := Path.ofText path
  let root ← Entries.get? b p.head.name
  match p.head.index, p.tail with
  | none, next :: rest => root.typeAlong? next rest
  | _, _ => (property? b path).map Argument.type

end Bindings

end MappedSql
