import MappedSql.Entries
import MappedSql.Text.Blank

/-!
# The parts of a placeholder

The content of a placeholder names a property, or holds an expression in parentheses, and
then may give a driver type after a colon and further options after commas:

    property :type , name = value , name = value
    ( expression ) :type , name = value

Blanks around every part are dropped. The parts are kept under their names, `property` or
`expression` and `jdbcType` for the unnamed ones; an option with a name that is already
there replaces its value. Positions in faults count bytes of UTF-8 from zero.
-/

namespace MappedSql.Placeholder

def ofContent (content : String) : String :=
  "#\x7b" ++ content ++ "\x7d"

/-- The texts of the parts under their names, in the order in which the names first came. -/
abbrev Parts := Keyed String String

inductive Fault
  | unbalancedParenthesis (position : Nat)
  | unexpectedText (content : String) (position : Nat)
  | missingValue (option : String)
  deriving DecidableEq, Repr

def Fault.message : Fault → String
  | .unbalancedParenthesis position =>
    "unbalanced parenthesis starting at position " ++ toString position
  | .unexpectedText content position =>
    "Parsing error in \x7b" ++ content ++ "\x7d in position " ++ toString position
  | .missingValue option => "option '" ++ option ++ "' has no value"

/-- A character that is skipped before a part: the space and all characters below it. -/
def isSpace (c : Char) : Bool :=
  c ≤ ' '

def skipSpaces (s : List Char) : List Char :=
  s.dropWhile isSpace

def byteLength (s : List Char) : Nat :=
  s.foldr (fun c n => c.utf8Size + n) 0

def part (s : List Char) : String :=
  String.ofList (Text.trim s)

/-- An expression after its opening parenthesis, up to the one that closes it, and what
follows that. `depth` counts the parentheses that are open. -/
def readExpression (depth : Nat) : List Char → Option (List Char × List Char)
  | [] => none
  | c :: rest =>
    if c = ')' ∧ depth ≤ 1 then some ([], rest)
    else
      let depth := if c = ')' then depth - 1 else if c = '(' then depth + 1 else depth
      (readExpression depth rest).map fun (text, after) => (c :: text, after)

def readOptions (parts : Parts) (s : List Char) : Except Fault Parts :=
  match _h : skipSpaces s with
  | [] => .ok parts
  | c :: rest =>
    match _h' : (c :: rest).dropWhile (· != '=') with
    | [] => .error (.missingValue (part (c :: rest)))
    | _ :: afterSign =>
      let name := part ((c :: rest).takeWhile (· != '='))
      let value := part (afterSign.takeWhile (· != ','))
      readOptions (Keyed.put parts name value) ((afterSign.dropWhile (· != ',')).drop 1)
termination_by s.length
decreasing_by
  have h₁ : (skipSpaces s).length ≤ s.length := (List.dropWhile_sublist _).length_le
  have h₂ : ((c :: rest).dropWhile (· != '=')).length ≤ (c :: rest).length :=
    (List.dropWhile_sublist _).length_le
  have h₃ : (afterSign.dropWhile (· != ',')).length ≤ afterSign.length :=
    (List.dropWhile_sublist _).length_le
  rw [_h] at h₁
  rw [_h'] at h₂
  simp only [List.length_drop, List.length_cons] at *
  omega

def readRest (content : String) (parts : Parts) (s : List Char) : Except Fault Parts :=
  let position (rest : List Char) : Nat := byteLength content.toList - byteLength rest
  match skipSpaces s with
  | [] => .ok parts
  | ':' :: rest =>
    match (skipSpaces rest).takeWhile (· != ',') with
    | [] => .error (.unexpectedText content (position rest))
    | type =>
      readOptions (Keyed.put parts "jdbcType" (part type))
        (((skipSpaces rest).dropWhile (· != ',')).drop 1)
  | ',' :: rest => readOptions parts rest
  | rest => .error (.unexpectedText content (position rest))

def parts (content : String) : Except Fault Parts :=
  match skipSpaces content.toList with
  | [] => readRest content [] []
  | '(' :: rest =>
    match readExpression 1 rest with
    | none => .error (.unbalancedParenthesis (byteLength content.toList - byteLength rest))
    | some (text, after) => readRest content [("expression", String.ofList text)] after
  | s =>
    let isProperty (c : Char) : Bool := c != ',' && c != ':'
    readRest content [("property", part (s.takeWhile isProperty))] (s.dropWhile isProperty)

end MappedSql.Placeholder
