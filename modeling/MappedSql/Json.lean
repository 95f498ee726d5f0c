import MappedSql.Entries
import MappedSql.Number.Layout

/-!
# JSON values and their text

Whole numbers are kept apart from binary64 numbers, and the members of an object are
sorted by name. The text of a value has no blanks.
-/

namespace MappedSql

inductive Json
  | null
  | boolean (value : Bool)
  | integer (value : Int)
  | number (value : Double)
  | string (value : String)
  | array (items : List Json)
  | object (members : List (String × Json))
  deriving Repr, Inhabited

namespace Json

def hexDigit (n : Nat) : Char :=
  if n < 10 then Char.ofNat ('0'.toNat + n) else Char.ofNat ('a'.toNat + (n - 10))

def escape (c : Char) : List Char :=
  match c with
  | '"' => ['\\', '"']
  | '\\' => ['\\', '\\']
  | '\n' => ['\\', 'n']
  | '\r' => ['\\', 'r']
  | '\t' => ['\\', 't']
  | '\x08' => ['\\', 'b']
  | '\x0c' => ['\\', 'f']
  | c =>
    if c.toNat < 0x20 then
      ['\\', 'u', '0', '0', hexDigit (c.toNat / 16), hexDigit (c.toNat % 16)]
    else [c]

def quote (s : String) : String :=
  String.ofList ('"' :: s.toList.flatMap escape ++ ['"'])

mutual
def text : Json → String
  | .null => "null"
  | .boolean true => "true"
  | .boolean false => "false"
  | .integer n => toString n
  | .number d => NumberLayout.json.write d
  | .string s => quote s
  | .array items => "[" ++ String.intercalate "," (texts items) ++ "]"
  | .object members => "\x7b" ++ String.intercalate "," (memberTexts members) ++ "\x7d"
def texts : List Json → List String
  | [] => []
  | item :: rest => text item :: texts rest
def memberTexts : List (String × Json) → List String
  | [] => []
  | (name, value) :: rest => (quote name ++ ":" ++ text value) :: memberTexts rest
end

mutual
/-- Equality of values: binary64 numbers are compared as numbers, so that the two zeros
are equal, and a whole number never equals a binary64 number. -/
def same : Json → Json → Bool
  | .null, .null => true
  | .boolean a, .boolean b => a == b
  | .integer a, .integer b => a == b
  | .number a, .number b => a.equals b
  | .string a, .string b => a == b
  | .array a, .array b => sameItems a b
  | .object a, .object b => sameMembers a b
  | _, _ => false
def sameItems : List Json → List Json → Bool
  | [], [] => true
  | a :: as, b :: bs => same a b && sameItems as bs
  | _, _ => false
def sameMembers : List (String × Json) → List (String × Json) → Bool
  | [], [] => true
  | (m, a) :: as, (n, b) :: bs => m == n && same a b && sameMembers as bs
  | _, _ => false
end

def ofDouble (d : Double) : Json :=
  if d.isFinite then .number d else .null

end Json

end MappedSql
