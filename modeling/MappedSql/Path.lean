import MappedSql.ValueType

/-!
# Property paths

A path such as `orders[0].lines` is a list of steps divided by points. A step has a name and
may have an index in brackets after it. Every text is a path: steps may be empty, and a
bracket that is never closed still opens an index.
-/

namespace MappedSql

/-- One step of a path: the text between two points, the name in it and the index. -/
structure Step where
  text : String
  name : String
  index : Option String
  deriving DecidableEq, Repr

structure Path where
  head : Step
  tail : List Step
  deriving DecidableEq, Repr

namespace Path

/-- The parts of a text between its points: one more than there are points. -/
def segments : List Char → List Char × List (List Char)
  | [] => ([], [])
  | '.' :: rest =>
    let (first, others) := segments rest
    ([], first :: others)
  | c :: rest =>
    let (first, others) := segments rest
    (c :: first, others)

def dropBracket (s : List Char) : List Char :=
  if s.getLast? = some ']' then s.dropLast else s

def step (segment : List Char) : Step where
  text := String.ofList segment
  name := String.ofList (segment.takeWhile (· != '['))
  index :=
    match segment.dropWhile (· != '[') with
    | [] => none
    | _ :: inside => some (String.ofList (dropBracket inside))

def ofText (text : String) : Path :=
  let (first, others) := segments text.toList
  { head := step first, tail := others.map step }

def steps (p : Path) : List Step :=
  p.head :: p.tail

def next? (p : Path) : Option Path :=
  match p.tail with
  | [] => none
  | head :: tail => some { head, tail }

def text (p : Path) : String :=
  String.intercalate "." (p.steps.map (·.text))

def suffixes (p : Path) : List Path :=
  go p.head p.tail
where
  go (head : Step) : List Step → List Path
    | [] => [{ head, tail := [] }]
    | next :: rest => { head, tail := next :: rest } :: go next rest

end Path

namespace RecordType

/-- The declared type of one step. Nothing is declared about an indexed value. -/
def stepType? (r : RecordType) (s : Step) : Option ValueType :=
  (r.declared? s.name).map fun declared => if s.index.isSome then .object else declared

def typeAlong? (r : RecordType) (first : Step) : List Step → Option ValueType
  | [] => r.stepType? first
  | next :: rest => do
    match ← r.stepType? first with
    | .record name properties => typeAlong? { name, properties } next rest
    | _ => none

def propertyType? (r : RecordType) (path : String) : Option ValueType :=
  let p := Path.ofText path
  r.typeAlong? p.head p.tail

end RecordType

end MappedSql
