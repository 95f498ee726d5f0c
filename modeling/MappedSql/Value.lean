import MappedSql.Json
import MappedSql.Timestamp
import MappedSql.ValueType

/-!
# Values

A value is what a column of a row holds and what a marker of a statement is bound to.
-/

namespace MappedSql

inductive Value
  | null
  | int (value : Int64)
  | double (value : Double)
  | text (value : String)
  | boolean (value : Bool)
  | timestamp (value : Timestamp)
  | json (value : Json)
  | blob (bytes : List UInt8)
  deriving Repr, Inhabited

namespace Value

def isNull : Value → Bool
  | .null => true
  | _ => false

def int? : Value → Option Int64
  | .int n => some n
  | _ => none

def text? : Value → Option String
  | .text s => some s
  | _ => none

/-- A truth value; the whole numbers one and zero count as true and false. -/
def boolean? : Value → Option Bool
  | .boolean b => some b
  | .int n => if n = 1 then some true else if n = 0 then some false else none
  | _ => none

def double? : Value → Option Double
  | .double d => some d
  | _ => none

def blob? : Value → Option (List UInt8)
  | .blob bytes => some bytes
  | _ => none

def type : Value → ValueType
  | .null => .object
  | .int _ => .int
  | .double _ => .double
  | .text _ => .text
  | .boolean _ => .boolean
  | .timestamp _ => .timestamp
  | .json _ => .json
  | .blob _ => .blob

def display : Value → String
  | .null => "null"
  | .int n => toString n.toInt
  | .double d => NumberLayout.plain.write d
  | .text s => s
  | .boolean b => if b then "true" else "false"
  | .timestamp t => t.text
  | .json j => j.text
  | .blob bytes => "<" ++ toString bytes.length ++ " bytes>"

def toJson : Value → Json
  | .null => .null
  | .int n => .integer n.toInt
  | .double d => .ofDouble d
  | .text s => .string s
  | .boolean b => .boolean b
  | .timestamp t => .string t.text
  | .json j => j
  | .blob bytes => .array (bytes.map fun b => .integer b.toNat)

def same : Value → Value → Bool
  | .null, .null => true
  | .int a, .int b => a == b
  | .double a, .double b => a.equals b
  | .text a, .text b => a == b
  | .boolean a, .boolean b => a == b
  | .timestamp a, .timestamp b => a == b
  | .json a, .json b => a.same b
  | .blob a, .blob b => a == b
  | _, _ => false

end Value

end MappedSql
