import MappedSql.Json.Document
import MappedSql.Value

/-!
# Values in documents

In a document a value is an object with one member, named for the kind of the value. Null
is its bare name, or that name over null. A number that is not finite is written as null
and cannot be read back.
-/

namespace MappedSql.Value

def toTagged : Value → Json
  | .null => .string "Null"
  | .int n => .object [("Int", .integer n.toInt)]
  | .double d => .object [("Float", .ofDouble d)]
  | .text s => .object [("Text", .string s)]
  | .boolean b => .object [("Bool", .boolean b)]
  | .timestamp t => .object [("Timestamp", .string t.documentText)]
  | .json j => .object [("JSON", j)]
  | .blob bytes => .object [("Blob", .array (bytes.map fun b => .integer b.toNat))]

def byte? : Json → Option UInt8
  | .integer n => if 0 ≤ n ∧ n < 256 then some (UInt8.ofNat n.toNat) else none
  | _ => none

def ofMember? (kind : String) (member : Json) : Option Value :=
  match kind, member with
  | "Null", .null => some .null
  | "Int", .integer n =>
    if -Int.pow 2 63 ≤ n ∧ n < Int.pow 2 63 then some (.int (Int64.ofInt n)) else none
  | "Float", .number d => some (.double d)
  | "Float", .integer n => some (.double (.ofInt n))
  | "Text", .string s => some (.text s)
  | "Bool", .boolean b => some (.boolean b)
  | "Timestamp", .string s => (Timestamp.ofDocumentText? s).map .timestamp
  | "JSON", j => some (.json j)
  | "Blob", .array items => (items.mapM byte?).map .blob
  | _, _ => none

def ofDocument? : Document → Option Value
  | .string (some "Null") => some .null
  | .object [(some kind, member)] => do
    ofMember? kind (← member.toJson? (Document.maxDepth - 1))
  | _ => none

def ofTaggedText? (text : String) : Option Value := do
  ofDocument? (← Document.ofText? text)

end MappedSql.Value
