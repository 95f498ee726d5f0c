import MappedSql.Json

/-!
# Reading JSON text

A `Document` is the tree of a JSON text before its parts have a meaning: members keep
their order and may repeat, a quoted text with half of a surrogate pair has no
characters, and a numeral may be out of range. So a reader can skip a part that it does
not know whatever is in it, and refuse the same part where it needs its value.
`Document.toJson?` gives a value to a whole document, nested no deeper than a limit.
-/

namespace MappedSql

structure Numeral where
  negative : Bool
  whole : List Char
  fraction : List Char
  exponent : Option Int
  deriving Repr

inductive Document
  | null
  | boolean (value : Bool)
  | number (value : Numeral)
  | string (value : Option String)
  | array (items : List Document)
  | object (members : List (Option String × Document))
  deriving Repr, Inhabited

namespace Numeral

def digit (c : Char) : Nat :=
  c.toNat - '0'.toNat

def ofDigits (digits : List Char) : Nat :=
  digits.foldl (fun n c => n * 10 + digit c) 0

/-- Extends a significand by the digits before the point while it fits 64 bits. Each digit
that no longer fits counts as a power of ten. -/
def addWhole (significand : Nat) : List Char → Nat × Int
  | [] => (significand, 0)
  | c :: rest =>
    let next := significand * 10 + digit c
    if next < Nat.pow 2 64 then addWhole next rest else (significand, (c :: rest).length)

/-- Extends a significand by the digits after the point while it fits 64 bits. Each digit
used takes one power of ten away; the rest are dropped. -/
def addFraction (significand : Nat) (power : Int) : List Char → Nat × Int
  | [] => (significand, power)
  | c :: rest =>
    let next := significand * 10 + digit c
    if next < Nat.pow 2 64 then addFraction next (power - 1) rest else (significand, power)

/-- Divides by a power of ten. Powers that are no binary64 number are taken in steps. -/
def scaleDown : Nat → Double → Nat → Double
  | 0, d, _ => d
  | fuel + 1, d, power =>
    if power ≤ 308 then d.div (.ofDecimal false 1 power)
    else
      let lower := d.div (.ofDecimal false 1 308)
      if lower.isZero then lower else scaleDown fuel lower (power - 308)

def scaled? (significand : Nat) (power : Int) : Option Double :=
  let d := Double.ofNat significand
  if d.isZero then some d
  else if power < 0 then some (scaleDown 4 d (-power).toNat)
  else if 308 < power then none
  else
    let product := d.mul (.ofDecimal false 1 power)
    if product.isInfinite then none else some product

/-- A numeral with neither point nor exponent that fits 64 bits is a whole number, except
for minus zero. All others are binary64 numbers, and must not be too large. -/
def toJson? (n : Numeral) : Option Json :=
  let (significand, power) := addWhole 0 n.whole
  let isWhole := n.fraction.isEmpty && n.exponent.isNone && power == 0
  if isWhole && !n.negative then some (.integer significand)
  else if isWhole && 0 < significand && significand ≤ Nat.pow 2 63 then
    some (.integer (-significand))
  else
    let (significand, power) := addFraction significand power n.fraction
    (scaled? significand (power + n.exponent.getD 0)).map fun d =>
      .number (if n.negative then d.neg else d)

end Numeral

namespace Document

def isBlank (c : Char) : Bool :=
  c == ' ' || c == '\n' || c == '\r' || c == '\t'

def skipBlanks (s : List Char) : List Char :=
  s.dropWhile isBlank

def hexValue? (c : Char) : Option Nat :=
  if c.isDigit then some (c.toNat - '0'.toNat)
  else if 'a' ≤ c && c ≤ 'f' then some (c.toNat - 'a'.toNat + 10)
  else if 'A' ≤ c && c ≤ 'F' then some (c.toNat - 'A'.toNat + 10)
  else none

def hex4? (a b c d : Char) : Option Nat := do
  return ((← hexValue? a) * 16 + (← hexValue? b)) * 256 + (← hexValue? c) * 16 + (← hexValue? d)

def escaped? : Char → Option Char
  | '"' => some '"'
  | '\\' => some '\\'
  | '/' => some '/'
  | 'b' => some '\x08'
  | 'f' => some '\x0c'
  | 'n' => some '\n'
  | 'r' => some '\r'
  | 't' => some '\t'
  | _ => none

def addChar (c : Option Char) (read : Option (List Char) × List Char) :
    Option (List Char) × List Char :=
  (c.bind fun c => read.1.map (c :: ·), read.2)

def lowHalf? : List Char → Option Nat
  | '\\' :: 'u' :: a :: b :: c :: d :: _ => do
    let n ← hex4? a b c d
    if 0xdc00 ≤ n && n < 0xe000 then some n else none
  | _ => none

/-- The characters of a quoted text after its opening quote, and what follows the closing
quote. There are no characters when an escape is half of a surrogate pair. -/
def readString (s : List Char) : Option (Option (List Char) × List Char) :=
  match s with
  | '"' :: rest => some (some [], rest)
  | '\\' :: 'u' :: a :: b :: c :: d :: rest => do
    let n ← hex4? a b c d
    if 0xd800 ≤ n && n < 0xdc00 then
      match lowHalf? rest with
      | some low =>
        let c := Char.ofNat (0x10000 + (n - 0xd800) * 0x400 + (low - 0xdc00))
        return addChar (some c) (← readString (rest.drop 6))
      | none => return addChar none (← readString rest)
    else if 0xdc00 ≤ n && n < 0xe000 then
      return addChar none (← readString rest)
    else
      return addChar (some (Char.ofNat n)) (← readString rest)
  | '\\' :: c :: rest => do
    let c ← escaped? c
    return addChar (some c) (← readString rest)
  | c :: rest =>
    if c.toNat < 0x20 || c == '\\' then none
    else (readString rest).map (addChar (some c))
  | [] => none
termination_by s.length

def readDigits (s : List Char) : Option (List Char × List Char) :=
  match s.takeWhile Char.isDigit with
  | [] => none
  | digits => some (digits, s.dropWhile Char.isDigit)

def readExponent (s : List Char) : Option (Int × List Char) := do
  let (negative, s) := match s with
    | '-' :: rest => (true, rest)
    | '+' :: rest => (false, rest)
    | s => (false, s)
  let (digits, rest) ← readDigits s
  let n : Int := Numeral.ofDigits digits
  return (if negative then -n else n, rest)

/-- A numeral. Only zero itself starts with a zero, and a point has digits after it. -/
def readNumeral (s : List Char) : Option (Numeral × List Char) := do
  let (negative, s) := match s with
    | '-' :: rest => (true, rest)
    | s => (false, s)
  let (whole, s) ← readDigits s
  if whole.head? == some '0' && whole.length ≠ 1 then none
  let (fraction, s) ← match s with
    | '.' :: rest => readDigits rest
    | s => some ([], s)
  let (exponent, s) ← match s with
    | 'e' :: rest | 'E' :: rest => (readExponent rest).map fun (n, rest) => (some n, rest)
    | s => some (none, s)
  return ({ negative, whole, fraction, exponent }, s)

def readWord (word : String) (s : List Char) : Option (List Char) :=
  word.toList.isPrefixOf? s

mutual
/-- A document at the front of a text that may start with blanks, and what follows it. The
fuel bounds the nesting and the number of parts; the length of the text is enough. -/
def readValue : Nat → List Char → Option (Document × List Char)
  | 0, _ => none
  | fuel + 1, s =>
    match skipBlanks s with
    | [] => none
    | '"' :: rest =>
      (readString rest).map fun (value, rest) => (.string (value.map String.ofList), rest)
    | '[' :: rest =>
      match skipBlanks rest with
      | ']' :: rest => some (.array [], rest)
      | _ => (readItems fuel rest).map fun (items, rest) => (.array items, rest)
    | c :: rest =>
      if c == '\x7b' then
        match skipBlanks rest with
        | [] => none
        | c' :: rest' =>
          if c' == '\x7d' then some (.object [], rest')
          else (readMembers fuel rest).map fun (members, rest) => (.object members, rest)
      else if c == 'n' then (readWord "ull" rest).map (.null, ·)
      else if c == 't' then (readWord "rue" rest).map (.boolean true, ·)
      else if c == 'f' then (readWord "alse" rest).map (.boolean false, ·)
      else (readNumeral (c :: rest)).map fun (n, rest) => (.number n, rest)
def readItems : Nat → List Char → Option (List Document × List Char)
  | 0, _ => none
  | fuel + 1, s => do
    let (item, rest) ← readValue fuel s
    match skipBlanks rest with
    | ',' :: rest =>
      let (items, rest) ← readItems fuel rest
      return (item :: items, rest)
    | ']' :: rest => return ([item], rest)
    | _ => none
def readMembers : Nat → List Char → Option (List (Option String × Document) × List Char)
  | 0, _ => none
  | fuel + 1, s =>
    match skipBlanks s with
    | '"' :: rest => do
      let (name, rest) ← readString rest
      match skipBlanks rest with
      | ':' :: rest =>
        let (value, rest) ← readValue fuel rest
        let member := (name.map String.ofList, value)
        match skipBlanks rest with
        | ',' :: rest =>
          let (members, rest) ← readMembers fuel rest
          return (member :: members, rest)
        | c :: rest => if c == '\x7d' then return ([member], rest) else none
        | [] => none
      | _ => none
    | _ => none
end

def ofText? (text : String) : Option Document := do
  let s := text.toList
  let (document, rest) ← readValue (s.length + 1) s
  if (skipBlanks rest).isEmpty then some document else none

mutual
/-- The value of a document whose arrays and objects nest no deeper than `depth`; of
members with the same name the last counts. -/
def toJson? (depth : Nat) : Document → Option Json
  | .null => some .null
  | .boolean b => some (.boolean b)
  | .number n => n.toJson?
  | .string s => s.map .string
  | .array items => if depth = 0 then none else (items? (depth - 1) items).map .array
  | .object members =>
    if depth = 0 then none
    else (members? (depth - 1) members).map fun pairs => .object (Entries.ofList pairs)
def items? (depth : Nat) : List Document → Option (List Json)
  | [] => some []
  | item :: rest => do return (← toJson? depth item) :: (← items? depth rest)
def members? (depth : Nat) : List (Option String × Document) → Option (List (String × Json))
  | [] => some []
  | (name, value) :: rest => do
    return (← name, ← toJson? depth value) :: (← members? depth rest)
end

def maxDepth : Nat := 127

end Document

def Json.ofText? (text : String) : Option Json := do
  (← Document.ofText? text).toJson? Document.maxDepth

end MappedSql
