/-!
# Binary64 numbers

A floating point number is its IEEE 754 binary64 bit pattern, so two numbers are equal as
data exactly when they have the same bits. Comparison, rounding, products and quotients
are computed exactly on integers: a finite number is `significand * 2 ^ exponent`, and
the patterns without their sign bit are ordered as the magnitudes they stand for.
-/

namespace MappedSql

structure Double where
  bits : UInt64
  deriving DecidableEq, Repr, Inhabited

namespace Double

/-- The pattern of infinity; larger patterns without sign are not numbers. -/
def infinityPattern : Nat := 0x7ff0000000000000

def isNegative (d : Double) : Bool :=
  d.bits.toNat / Nat.pow 2 63 == 1

def pattern (d : Double) : Nat :=
  d.bits.toNat % Nat.pow 2 63

def isNaN (d : Double) : Bool :=
  infinityPattern < d.pattern

def isInfinite (d : Double) : Bool :=
  d.pattern == infinityPattern

def isFinite (d : Double) : Bool :=
  d.pattern < infinityPattern

def isZero (d : Double) : Bool :=
  d.pattern == 0

def significand (d : Double) : Nat :=
  if d.pattern / Nat.pow 2 52 = 0 then d.pattern
  else d.pattern % Nat.pow 2 52 + Nat.pow 2 52

def exponent (d : Double) : Int :=
  (max 1 (d.pattern / Nat.pow 2 52) : Nat) - 1075

/-- The place of a number among all numbers; both zeros have the same place. -/
def rank (d : Double) : Int :=
  if d.isNegative then -(d.pattern : Int) else d.pattern

def compare? (a b : Double) : Option Ordering :=
  if a.isNaN || b.isNaN then none else some (compare a.rank b.rank)

/-- Numeric equality: the two zeros are equal, and a NaN equals nothing. -/
def equals (a b : Double) : Bool :=
  a.compare? b == some .eq

def ofPattern (negative : Bool) (pattern : Nat) : Double :=
  ⟨UInt64.ofNat (pattern + if negative then Nat.pow 2 63 else 0)⟩

/-- The whole number nearest to `num / den`; a half goes to the even neighbour. -/
def roundHalfEven (num den : Nat) : Nat :=
  let quotient := num / den
  let twice := 2 * (num % den)
  if twice < den then quotient
  else if den < twice then quotient + 1
  else quotient + quotient % 2

/-- The largest `e` with `2 ^ e ≤ num / den`, for positive `num` and `den`. -/
def floorLog2 (num den : Nat) : Int :=
  let e : Int := num.log2 - den.log2
  if den * Nat.pow 2 e.toNat ≤ num * Nat.pow 2 (-e).toNat then e else e - 1

/-- The pattern of the number nearest to `num / den`: the significand is rounded to 53
bits, or to a multiple of the least positive number, and a carry moves on to the next
exponent by itself. -/
def nearestPattern (num den : Nat) : Nat :=
  if num = 0 then 0
  else
    let scale := max (floorLog2 num den - 52) (-1074)
    let rounded := roundHalfEven (num * Nat.pow 2 (-scale).toNat) (den * Nat.pow 2 scale.toNat)
    min ((scale + 1074).toNat * Nat.pow 2 52 + rounded) infinityPattern

/-- The number nearest to `num / den` with the given sign; a tie goes to the even
significand, and what is too large becomes infinite. -/
def ofRatio (negative : Bool) (num den : Nat) : Double :=
  ofPattern negative (nearestPattern num den)

def ofNat (n : Nat) : Double :=
  ofRatio false n 1

def ofInt (n : Int) : Double :=
  ofRatio (n < 0) n.natAbs 1

def ofDecimal (negative : Bool) (digits : Nat) (power : Int) : Double :=
  ofRatio negative (digits * Nat.pow 10 power.toNat) (Nat.pow 10 (-power).toNat)

def neg (d : Double) : Double :=
  ofPattern (!d.isNegative) d.pattern

def mul (a b : Double) : Double :=
  let scale := a.exponent + b.exponent
  ofRatio (a.isNegative != b.isNegative)
    (a.significand * b.significand * Nat.pow 2 scale.toNat) (Nat.pow 2 (-scale).toNat)

def div (a b : Double) : Double :=
  let scale := a.exponent - b.exponent
  ofRatio (a.isNegative != b.isNegative)
    (a.significand * Nat.pow 2 scale.toNat) (b.significand * Nat.pow 2 (-scale).toNat)

end Double

end MappedSql
