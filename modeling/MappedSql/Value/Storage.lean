import MappedSql.Value

/-!
# Storage classes

The five classes of values that an SQLite database stores. Truth values are stored as whole
numbers, timestamps and JSON as text.
-/

namespace MappedSql

inductive Stored
  | null
  | integer (value : Int64)
  | real (value : Double)
  | text (value : String)
  | blob (bytes : List UInt8)
  deriving DecidableEq, Repr

def Value.stored : Value → Stored
  | .null => .null
  | .int n => .integer n
  | .double d => .real d
  | .text s => .text s
  | .boolean b => .integer (if b then 1 else 0)
  | .timestamp t => .text t.text
  | .json j => .text j.text
  | .blob bytes => .blob bytes

end MappedSql
