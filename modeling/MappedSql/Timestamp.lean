import MappedSql.Text.Blank
import MappedSql.Text.Numeral

/-!
# Timestamps

A timestamp is a day of the proleptic Gregorian calendar and a time of that day, to the
nanosecond. A leap second is second 59 with a thousand million nanoseconds or more, and is
written as second 60. The fraction of a second is written with three, six or nine digits,
as many as it needs, and not at all when it is zero.
-/

namespace MappedSql

structure Timestamp where
  year : Int
  month : Nat
  day : Nat
  hour : Nat
  minute : Nat
  second : Nat
  nanosecond : Nat
  deriving DecidableEq, Repr

namespace Timestamp

/-- The parts from the largest to the smallest: timestamps are ordered by the first part in
which they differ. -/
def parts (t : Timestamp) : List Int :=
  [t.year, t.month, t.day, t.hour, t.minute, t.second, t.nanosecond]

instance : Ord Timestamp where
  compare a b := compare a.parts b.parts

/-- A year has four digits. Years with more, and negative years, have a sign. -/
def yearText (year : Int) : String :=
  if year < 0 then "-" ++ Text.padded 4 year.natAbs
  else if 9999 < year then "+" ++ toString year.natAbs
  else Text.padded 4 year.natAbs

def dateText (t : Timestamp) : String :=
  yearText t.year ++ "-" ++ Text.padded 2 t.month ++ "-" ++ Text.padded 2 t.day

def fractionText (nanosecond : Nat) : String :=
  if nanosecond = 0 then ""
  else if nanosecond % 1000000 = 0 then "." ++ Text.padded 3 (nanosecond / 1000000)
  else if nanosecond % 1000 = 0 then "." ++ Text.padded 6 (nanosecond / 1000)
  else "." ++ Text.padded 9 nanosecond

def timeText (t : Timestamp) : String :=
  let second := t.second + t.nanosecond / 1000000000
  Text.padded 2 t.hour ++ ":" ++ Text.padded 2 t.minute ++ ":" ++ Text.padded 2 second
    ++ fractionText (t.nanosecond % 1000000000)

def text (t : Timestamp) : String :=
  t.dateText ++ " " ++ t.timeText

def documentText (t : Timestamp) : String :=
  t.dateText ++ "T" ++ t.timeText

/-! ### Reading -/

def isLeapYear (year : Int) : Bool :=
  year % 4 == 0 && (year % 100 != 0 || year % 400 == 0)

def daysInMonth (year : Int) : Nat → Nat
  | 2 => if isLeapYear year then 29 else 28
  | 4 | 6 | 9 | 11 => 30
  | _ => 31

def firstYear : Int := -262143
def lastYear : Int := 262142

def isValid (t : Timestamp) : Bool :=
  firstYear ≤ t.year && t.year ≤ lastYear && 1 ≤ t.month && t.month ≤ 12 &&
  1 ≤ t.day && t.day ≤ daysInMonth t.year t.month && t.hour < 24 && t.minute < 60 &&
  t.second < 60 && t.nanosecond < (if t.second = 59 then 2000000000 else 1000000000)

def readNumber (width : Nat) (s : List Char) : Option (Nat × List Char) := do
  let s := Text.trimStart s
  let digits := (s.take width).takeWhile Char.isDigit
  return (← Text.digits? digits, s.drop digits.length)

/-- The year may have any number of digits after a sign, and at most four without one. -/
def readYear (s : List Char) : Option (Int × List Char) :=
  match Text.trimStart s with
  | '-' :: rest =>
    let digits := rest.takeWhile Char.isDigit
    (Text.digits? digits).map fun n => (-(n : Int), rest.drop digits.length)
  | '+' :: rest =>
    let digits := rest.takeWhile Char.isDigit
    (Text.digits? digits).map fun n => ((n : Int), rest.drop digits.length)
  | s => (readNumber 4 s).map fun (n, rest) => ((n : Int), rest)

def readMark (mark : Char) (s : List Char) : Option (List Char) :=
  match Text.trimStart s with
  | c :: rest => if c == mark then some rest else none
  | [] => none

def readFraction (s : List Char) : Option (Nat × List Char) :=
  match s with
  | '.' :: rest => do
    let digits := rest.takeWhile Char.isDigit
    let n ← Text.digits? (digits.take 9)
    return (n * Nat.pow 10 (9 - (digits.take 9).length), rest.drop digits.length)
  | s => some (0, s)

/-- Reads a timestamp in the form documents hold it. Numbers may have fewer digits than
are written, blanks may stand before each part and after the last, and second 60 is a leap
second. -/
def ofDocumentText? (text : String) : Option Timestamp := do
  let (year, s) ← readYear text.toList
  let (month, s) ← readNumber 2 (← readMark '-' s)
  let (day, s) ← readNumber 2 (← readMark '-' s)
  let (hour, s) ← readNumber 2 (← readMark 'T' s)
  let (minute, s) ← readNumber 2 (← readMark ':' s)
  let (second, s) ← readNumber 2 (← readMark ':' s)
  let (fraction, s) ← readFraction s
  if !(Text.trimStart s).isEmpty then none
  let t : Timestamp :=
    if second = 60 then ⟨year, month, day, hour, minute, 59, fraction + 1000000000⟩
    else ⟨year, month, day, hour, minute, second, fraction⟩
  if t.isValid then some t else none

end Timestamp

end MappedSql
