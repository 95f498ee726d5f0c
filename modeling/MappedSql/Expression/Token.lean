import MappedSql.Text.Blank
import MappedSql.Text.Letters
import MappedSql.Text.Numeral
import MappedSql.Number.Double
import MappedSql.ValueType

/-!
# Words of expressions

An expression is made of paths, literals, operators and parentheses, with blanks between
them where they would run together. Words are read from left to right. A minus sign
belongs to a number only where no operand stands before it. Positions in faults count
characters from zero.
-/

namespace MappedSql.Expression

inductive Comparison
  | eq | ne | lt | le | gt | ge
  deriving DecidableEq, Repr

inductive Token
  | path (text : String)
  | int (value : Int64)
  | double (value : Double)
  | text (value : String)
  | null
  | boolean (value : Bool)
  | and
  | or
  | not
  | compare (op : Comparison)
  | opening
  | closing
  deriving DecidableEq, Repr

inductive Fault
  | unexpectedCharacter (c : Char) (position : Nat)
  | unterminatedText (position : Nat)
  | unclosedIndex (position : Nat)
  | invalidNumber (text : String)
  | unexpectedToken (token : Token)
  | missingParenthesis
  | unexpectedEnd
  | trailingInput
  | incomparable (left right : ValueType)
  deriving Repr

def Comparison.label : Comparison → String
  | .eq => "Eq"
  | .ne => "Ne"
  | .lt => "Lt"
  | .le => "Le"
  | .gt => "Gt"
  | .ge => "Ge"

namespace Token

def label : Token → String
  | .path _ => "Path"
  | .int _ => "Int"
  | .double _ => "Float"
  | .text _ => "Str"
  | .null => "Null"
  | .boolean true => "True"
  | .boolean false => "False"
  | .and => "And"
  | .or => "Or"
  | .not => "Not"
  | .compare op => "Cmp(" ++ op.label ++ ")"
  | .opening => "LParen"
  | .closing => "RParen"

def endsOperand : Token → Bool
  | .path _ | .int _ | .double _ | .text _ | .null | .boolean _ | .closing => true
  | .and | .or | .not | .compare _ | .opening => false

def keywords : List (String × Token) :=
  [("null", .null), ("true", .boolean true), ("false", .boolean false),
   ("and", .and), ("or", .or), ("not", .not),
   ("eq", .compare .eq), ("neq", .compare .ne), ("lt", .compare .lt), ("lte", .compare .le),
   ("gt", .compare .gt), ("gte", .compare .ge)]

def ofWord (word : String) : Token :=
  (keywords.lookup word).getD (.path word)

end Token

def Fault.message : Fault → String
  | .unexpectedCharacter c position =>
    "unexpected character '" ++ String.singleton c ++ "' at position " ++ toString position
  | .unterminatedText position => "unterminated string starting at position " ++ toString position
  | .unclosedIndex position => "unclosed '[' at position " ++ toString position
  | .invalidNumber text => "invalid number '" ++ text ++ "'"
  | .unexpectedToken token => "unexpected token " ++ token.label
  | .missingParenthesis => "expected ')'"
  | .unexpectedEnd => "unexpected end of expression"
  | .trailingInput => "unexpected trailing input"
  | .incomparable left right => "cannot compare " ++ left.name ++ " with " ++ right.name

/-! ### Reading words -/

def startsWord (c : Char) : Bool :=
  Text.isAlphabetic c || c == '_'

def isWordPart (c : Char) : Bool :=
  Text.isAlphanumeric c || c == '_' || c == '.'

/-- A quoted text after its opening quote, which was at position `start`, and what follows
its closing quote. A backslash makes the next character literal. -/
def readText (quote : Char) (start : Nat) : List Char → Except Fault (List Char × List Char)
  | [] => .error (.unterminatedText start)
  | ['\\'] => .error (.unterminatedText start)
  | '\\' :: c :: rest => do
    let (text, after) ← readText quote start rest
    return (c :: text, after)
  | c :: rest =>
    if c = quote then .ok ([], rest)
    else do
      let (text, after) ← readText quote start rest
      return (c :: text, after)

/-- A word and what follows it. Brackets belong to the word with all that is in them;
`opened` is the position of a bracket that waits to be closed. -/
def readWord (total : Nat) (opened : Option Nat) :
    List Char → Except Fault (List Char × List Char)
  | [] =>
    match opened with
    | none => .ok ([], [])
    | some position => .error (.unclosedIndex position)
  | c :: rest =>
    match opened with
    | some _ => do
      let (word, after) ← readWord total (if c = ']' then none else opened) rest
      return (c :: word, after)
    | none =>
      if isWordPart c then do
        let (word, after) ← readWord total none rest
        return (c :: word, after)
      else if c = '[' then do
        let (word, after) ← readWord total (some (total - (rest.length + 1))) rest
        return (c :: word, after)
      else .ok ([], c :: rest)

def isNumberPart (c : Char) : Bool :=
  c.isDigit || c == '.'

/-- The number that a text of digits and points stands for, with a sign before it. A text
with a point is a binary64 number, rounded to the nearest. -/
def numberToken? (negative : Bool) (text : List Char) : Option Token :=
  if text.contains '.' then do
    let whole := text.takeWhile (· != '.')
    let fraction := (text.dropWhile (· != '.')).drop 1
    let digits ← Text.digits? (whole ++ fraction)
    return .double (.ofDecimal negative digits (-fraction.length))
  else
    (Text.signed? (if negative then '-' :: text else text)).map .int

def readNumber (negative : Bool) (s : List Char) : Except Fault (Token × List Char) :=
  let text := s.takeWhile isNumberPart
  match numberToken? negative text with
  | some token => .ok (token, s.dropWhile isNumberPart)
  | none => .error (.invalidNumber (String.ofList (if negative then '-' :: text else text)))

/-- The token that starts with the character `c`, which is not blank, and what follows it.
The text has `total` characters, and `last` is the token before. -/
def readToken (total : Nat) (last : Option Token) (c : Char) (rest : List Char) :
    Except Fault (Token × List Char) :=
  let position := total - (rest.length + 1)
  match c, rest with
  | '(', rest => .ok (.opening, rest)
  | ')', rest => .ok (.closing, rest)
  | '=', '=' :: rest => .ok (.compare .eq, rest)
  | '!', '=' :: rest => .ok (.compare .ne, rest)
  | '!', rest => .ok (.not, rest)
  | '<', '=' :: rest => .ok (.compare .le, rest)
  | '<', rest => .ok (.compare .lt, rest)
  | '>', '=' :: rest => .ok (.compare .ge, rest)
  | '>', rest => .ok (.compare .gt, rest)
  | '&', '&' :: rest => .ok (.and, rest)
  | '|', '|' :: rest => .ok (.or, rest)
  | c, rest =>
    if c = '\'' ∨ c = '"' then do
      let (text, after) ← readText c position rest
      return (.text (String.ofList text), after)
    else if c = '-' ∧ (rest.head?.any Char.isDigit) ∧ !(last.any Token.endsOperand) then
      readNumber true rest
    else if c.isDigit then
      readNumber false (c :: rest)
    else if startsWord c then do
      let (word, after) ← readWord total none (c :: rest)
      return (Token.ofWord (String.ofList word), after)
    else
      .error (.unexpectedCharacter c position)

/-! ### Reading leaves less to read -/

theorem length_readText {quote : Char} {start : Nat} {s text after : List Char}
    (h : readText quote start s = .ok (text, after)) : after.length < s.length := by
  fun_induction readText quote start s generalizing text with
  | case1 => cases h
  | case2 => cases h
  | case3 c rest ih =>
    simp only [bind, Except.bind] at h
    split at h
    · cases h
    · rename_i heq
      cases h
      have := ih heq
      simp only [List.length_cons]
      omega
  | case4 => cases h; simp
  | case5 c rest _ _ _ ih =>
    simp only [bind, Except.bind] at h
    split at h
    · cases h
    · rename_i heq
      cases h
      have := ih heq
      simp only [List.length_cons]
      omega

theorem length_readWord {total : Nat} {opened : Option Nat} {s word after : List Char}
    (h : readWord total opened s = .ok (word, after)) : after.length ≤ s.length := by
  fun_induction readWord total opened s generalizing word with
  | case1 => cases h; simp
  | case2 => cases h
  | case6 => cases h; simp
  | _ =>
    rename_i ih
    simp only [bind, Except.bind] at h
    split at h
    · cases h
    · rename_i heq
      cases h
      have := ih heq
      simp only [List.length_cons]
      omega

theorem length_dropWhile_le (p : Char → Bool) (s : List Char) :
    (s.dropWhile p).length ≤ s.length :=
  (List.dropWhile_sublist p).length_le

theorem eq_dropWhile_of_readNumber {negative : Bool} {s after : List Char} {token : Token}
    (h : readNumber negative s = .ok (token, after)) : after = s.dropWhile isNumberPart := by
  simp only [readNumber] at h
  split at h
  · cases h; rfl
  · cases h

theorem isWordPart_of_startsWord {c : Char} (h : startsWord c) : isWordPart c := by
  simp only [startsWord, Bool.or_eq_true] at h
  simp only [isWordPart, Text.isAlphanumeric, Bool.or_eq_true]
  rcases h with h | h
  · exact .inl (.inl (.inl h))
  · exact .inl (.inr h)

theorem length_readToken {total : Nat} {last : Option Token} {c : Char} {rest after : List Char}
    {token : Token} (h : readToken total last c rest = .ok (token, after)) :
    after.length ≤ rest.length := by
  simp only [readToken] at h
  split at h
  all_goals try (cases h; simp)
  rename_i c rest _ _ _ _ _ _ _ _ _ _ _
  split at h
  · simp only [bind, Except.bind] at h
    split at h
    · cases h
    · rename_i heq
      cases h
      exact Nat.le_of_lt (length_readText heq)
  split at h
  · rw [eq_dropWhile_of_readNumber h]
    exact length_dropWhile_le _ _
  split at h
  · rename_i hd
    rw [eq_dropWhile_of_readNumber h, List.dropWhile_cons_of_pos (by simp [isNumberPart, hd])]
    exact length_dropWhile_le _ _
  split at h
  · rename_i hw
    simp only [readWord, isWordPart_of_startsWord hw, if_true, bind, Except.bind] at h
    split at h
    · cases h
    · rename_i heq
      split at heq
      · cases heq
      · rename_i heq'
        cases heq
        cases h
        exact length_readWord heq'
  · cases h

def tokensAfter (total : Nat) (last : Option Token) (s : List Char) : Except Fault (List Token) :=
  match s with
  | [] => .ok []
  | c :: rest =>
    if Text.isBlank c then tokensAfter total last rest
    else
      match _h : readToken total last c rest with
      | .error fault => .error fault
      | .ok (token, after) => do
        return token :: (← tokensAfter total (some token) after)
termination_by s.length
decreasing_by
  · simp
  · have := length_readToken _h
    simp only [List.length_cons]
    omega

def tokens (expression : String) : Except Fault (List Token) :=
  let s := expression.toList
  tokensAfter s.length none s

end MappedSql.Expression
