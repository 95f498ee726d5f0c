import MappedSql.Choice
import MappedSql.Json.Document

/-!
# Records in documents

A record has named fields in a fixed order. In a document it is an object, where every
field may come once and unknown members are skipped, or an array that starts with the
first field. A field that is missing has a default.
-/

namespace MappedSql.Document

def fields? (names : List String) : Document → Option (List (Option Document))
  | .array items =>
    if items.length ≤ names.length then
      some (items.map some ++ List.replicate (names.length - items.length) none)
    else none
  | .object members => do
    let members ← members.mapM fun (name, value) => name.map (·, value)
    names.mapM fun name =>
      match members.filter (·.1 == name) with
      | [] => some none
      | [(_, value)] => some (some value)
      | _ => none
  | _ => none

def boolean? : Document → Option Bool
  | .boolean b => some b
  | _ => none

def unsigned? : Document → Option Nat
  | .number n =>
    match n.toJson? with
    | some (.integer n) => if 0 ≤ n ∧ n < Int.pow 2 64 then some n.toNat else none
    | _ => none
  | _ => none

def string? : Document → Option String
  | .string s => s
  | _ => none

def optional? {α : Type} (read : Document → Option α) : Document → Option (Option α)
  | .null => some none
  | d => (read d).map some

/-- A value that goes by name: the name, or the name over null. -/
def choice? {α : Type} [Choice α] : Document → Option α
  | .string s => s.bind Choice.ofExactName?
  | .object [(some name, .null)] => Choice.ofExactName? name
  | _ => none

def entries? {α : Type} (read : Document → Option α) : Document → Option (Entries α)
  | .object members => do
    return Entries.ofList (← members.mapM fun (name, value) => do return (← name, ← read value))
  | _ => none

def field? {α : Type} (read : Document → Option α) (default : α) : Option Document → Option α
  | none => some default
  | some d => read d

end MappedSql.Document
