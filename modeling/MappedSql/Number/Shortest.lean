import MappedSql.Number.Double

/-!
# Shortest decimals

A finite binary64 number is written with the fewest significant digits that read back as
the same number, and of those with the digits nearest to it. The numbers that read back
as `m * 2 ^ e` are an interval around it, whose ends belong to it when `m` is even. On the
grid of decimals with `n` digits only the two neighbours of the number can be nearest, so
the first grid with a neighbour in the interval decides.
-/

namespace MappedSql

structure Decimal where
  digits : Nat
  power : Int
  deriving DecidableEq, Repr

namespace Decimal

inductive Tie
  | up
  | even
  deriving DecidableEq, Repr

def digitCount (n : Nat) : Nat :=
  (Nat.toDigits 10 n).length

/-- The least number of decimal places after which `num / den` is at least one, looked
for among the next `fuel` places. -/
def leadingPlace (den : Nat) : Nat → Nat → Nat → Nat
  | 0, _, place => place
  | fuel + 1, num, place =>
    if den ≤ num then place else leadingPlace den fuel (num * 10) (place + 1)

/-- The largest `e` with `10 ^ e ≤ num / den`, for positive ratios of binary64 numbers. -/
def floorLog10 (num den : Nat) : Int :=
  if den ≤ num then (digitCount (num / den) : Int) - 1 else -(leadingPlace den 400 num 0 : Int)

def strip : Nat → Decimal → Decimal
  | 0, d => d
  | fuel + 1, d =>
    if d.digits ≠ 0 ∧ d.digits % 10 = 0 then strip fuel ⟨d.digits / 10, d.power + 1⟩ else d

end Decimal

namespace Double

/-- A positive number with the interval of numbers that are read back as it, all three as
whole multiples of `num / den`. -/
structure Span where
  low : Nat
  value : Nat
  high : Nat
  closed : Bool
  num : Nat
  den : Nat
  deriving Repr

/-- The interval of a finite number that is not zero. Below a power of two the gap is half
as wide as above it. -/
def span (d : Double) : Span :=
  let m := d.significand
  let scale := d.exponent - 2
  let below := if m = Nat.pow 2 52 ∧ 1 < d.pattern / Nat.pow 2 52 then 1 else 2
  { low := 4 * m - below, value := 4 * m, high := 4 * m + 2, closed := m % 2 == 0
    num := Nat.pow 2 scale.toNat, den := Nat.pow 2 (-scale).toNat }

namespace Span

def contains (s : Span) (power : Int) (c : Nat) : Bool :=
  let point := c * Nat.pow 10 power.toNat * s.den
  let unit := s.num * Nat.pow 10 (-power).toNat
  if s.closed then s.low * unit ≤ point && point ≤ s.high * unit
  else s.low * unit < point && point < s.high * unit

/-- The neighbour of the number, on the grid of multiples of `10 ^ power`, that lies in
the interval; of two, the nearer. -/
def neighbour? (s : Span) (tie : Decimal.Tie) (power : Int) : Option Nat :=
  let target := s.value * s.num * Nat.pow 10 (-power).toNat
  let step := s.den * Nat.pow 10 power.toNat
  let down := target / step
  match s.contains power down, s.contains power (down + 1) with
  | true, false => some down
  | false, true => some (down + 1)
  | false, false => none
  | true, true =>
    let rest := 2 * (target - down * step)
    if rest < step then some down
    else if step < rest then some (down + 1)
    else match tie with
      | .up => some (down + 1)
      | .even => some (down + down % 2)

def search (s : Span) (tie : Decimal.Tie) (top : Int) : Nat → Nat → Option Decimal
  | 0, _ => none
  | fuel + 1, digits =>
    let power := top - digits + 1
    match s.neighbour? tie power with
    | some n => some ⟨n, power⟩
    | none => search s tie top fuel (digits + 1)

end Span

/-- The shortest decimal of the magnitude of a finite number; no digits end in zero. -/
def shortest (tie : Decimal.Tie) (d : Double) : Decimal :=
  if d.isZero then ⟨0, 0⟩
  else
    let s := d.span
    let top := Decimal.floorLog10 (s.value * s.num) s.den
    match s.search tie top 17 1 with
    | some found => Decimal.strip 20 found
    | none => ⟨0, 0⟩

end Double

end MappedSql
