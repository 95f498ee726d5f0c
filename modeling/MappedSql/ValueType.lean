import MappedSql.Choice
import MappedSql.Text.Blank

/-!
# Types of values

`ValueType` is what is known about a parameter value before it is bound: one of the simple
types, a collection, a record with declared properties, or nothing more than that it is an
object. `DriverType` is the type that a statement asks the driver to bind a value as.
-/

namespace MappedSql

inductive ValueType
  | int
  | double
  | text
  | boolean
  | timestamp
  | json
  | blob
  | cursor
  | map
  | list
  | object
  | record (name : String) (properties : List (String × ValueType))
  deriving Repr, Inhabited

namespace ValueType

mutual
def same : ValueType → ValueType → Bool
  | .int, .int | .double, .double | .text, .text | .boolean, .boolean => true
  | .timestamp, .timestamp | .json, .json | .blob, .blob | .cursor, .cursor => true
  | .map, .map | .list, .list | .object, .object => true
  | .record a as, .record b bs => a == b && sameProperties as bs
  | _, _ => false
def sameProperties : List (String × ValueType) → List (String × ValueType) → Bool
  | [], [] => true
  | (m, a) :: as, (n, b) :: bs => m == n && same a b && sameProperties as bs
  | _, _ => false
end

instance : BEq ValueType := ⟨same⟩

def name : ValueType → String
  | .int => "int"
  | .double => "double"
  | .text => "string"
  | .boolean => "boolean"
  | .timestamp => "timestamp"
  | .json => "json"
  | .blob => "bytes"
  | .cursor => "resultset"
  | .map => "map"
  | .list => "list"
  | .object => "object"
  | .record name _ => name

def isSimple : ValueType → Bool
  | .int | .double | .text | .boolean | .timestamp | .json | .blob => true
  | .cursor | .map | .list | .object | .record .. => false

def aliases : List (String × ValueType) :=
  [("int", .int), ("integer", .int), ("long", .int), ("short", .int), ("byte", .int),
   ("i32", .int), ("i64", .int),
   ("double", .double), ("float", .double), ("decimal", .double), ("bigdecimal", .double),
   ("f64", .double),
   ("string", .text), ("text", .text), ("str", .text),
   ("boolean", .boolean), ("bool", .boolean),
   ("timestamp", .timestamp), ("date", .timestamp), ("datetime", .timestamp),
   ("json", .json),
   ("bytes", .blob), ("blob", .blob), ("byte[]", .blob),
   ("resultset", .cursor), ("cursor", .cursor),
   ("map", .map), ("hashmap", .map),
   ("list", .list), ("arraylist", .list), ("collection", .list),
   ("object", .object)]

/-- The type that goes by a name; letter case and blanks around it do not matter. -/
def ofAlias? (name : String) : Option ValueType :=
  aliases.lookup (Text.asciiLower (Text.trimmed name))

end ValueType

structure RecordType where
  name : String
  properties : List (String × ValueType)
  deriving Repr, Inhabited

namespace RecordType

instance : BEq RecordType where
  beq a b := a.name == b.name && ValueType.sameProperties a.properties b.properties

/-- The declared type of a property; the first declaration of a name counts. -/
def declared? (r : RecordType) (property : String) : Option ValueType :=
  r.properties.lookup property

def toValueType (r : RecordType) : ValueType :=
  .record r.name r.properties

end RecordType

inductive DriverType
  | array | bigint | binary | bit | blob | boolean | char | clob | cursor | date | decimal
  | double | float | integer | json | longvarchar | null | numeric | other | real | smallint
  | time | timestamp | tinyint | undefined | varbinary | varchar
  deriving DecidableEq, Repr

namespace DriverType

def name : DriverType → String
  | .array => "array"
  | .bigint => "bigint"
  | .binary => "binary"
  | .bit => "bit"
  | .blob => "blob"
  | .boolean => "boolean"
  | .char => "char"
  | .clob => "clob"
  | .cursor => "cursor"
  | .date => "date"
  | .decimal => "decimal"
  | .double => "double"
  | .float => "float"
  | .integer => "integer"
  | .json => "json"
  | .longvarchar => "longvarchar"
  | .null => "null"
  | .numeric => "numeric"
  | .other => "other"
  | .real => "real"
  | .smallint => "smallint"
  | .time => "time"
  | .timestamp => "timestamp"
  | .tinyint => "tinyint"
  | .undefined => "undefined"
  | .varbinary => "varbinary"
  | .varchar => "varchar"

def text (t : DriverType) : String :=
  t.name.map Char.toUpper

instance : Choice DriverType where
  all := [.array, .bigint, .binary, .bit, .blob, .boolean, .char, .clob, .cursor, .date,
    .decimal, .double, .float, .integer, .json, .longvarchar, .null, .numeric, .other, .real,
    .smallint, .time, .timestamp, .tinyint, .undefined, .varbinary, .varchar]
  name := name

end DriverType

inductive ParameterMode
  | input
  | output
  | inputOutput
  deriving DecidableEq, Repr

namespace ParameterMode

def text : ParameterMode → String
  | .input => "In"
  | .output => "Out"
  | .inputOutput => "InOut"

def isOutput (m : ParameterMode) : Bool :=
  m != .input

instance : Choice ParameterMode where
  all := [input, output, inputOutput]
  name := text

end ParameterMode

end MappedSql
