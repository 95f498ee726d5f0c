import MappedSql.Number.Shortest

/-!
# Writing numbers

How a binary64 number is written is a record of choices over its shortest decimal: where
positional notation ends, whether a whole number keeps a fractional zero, which neighbour
a tie goes to, and how numbers that are not finite are written.
-/

namespace MappedSql

/-- How numbers are written. A number is positional when the power of its leading digit is
at least `lowest` and at most `highest`, where a missing bound means no limit. -/
structure NumberLayout where
  lowest : Option Int
  highest : Option Int
  fractionalZero : Bool
  tie : Decimal.Tie
  notANumber : String
  infinite : String
  deriving Repr

namespace NumberLayout

def plain : NumberLayout where
  lowest := none
  highest := none
  fractionalZero := false
  tie := .up
  notANumber := "NaN"
  infinite := "inf"

/-- Positional from a hundred thousandth up to below ten thousand million million, and
whole numbers keep a fractional zero there. -/
def json : NumberLayout where
  lowest := some (-5)
  highest := some 15
  fractionalZero := true
  tie := .even
  notANumber := "null"
  infinite := "null"

def isPositional (l : NumberLayout) (top : Int) : Bool :=
  l.lowest.all (· ≤ top) && l.highest.all (top ≤ ·)

def withPoint (digits : String) (places : Nat) : String :=
  let padded := String.ofList (List.replicate (places + 1 - digits.length) '0') ++ digits
  let whole := padded.length - places
  String.ofList (padded.toList.take whole) ++ "." ++ String.ofList (padded.toList.drop whole)

def positional (l : NumberLayout) (d : Decimal) : String :=
  let digits := toString d.digits
  if d.power < 0 then withPoint digits (-d.power).toNat
  else
    digits ++ String.ofList (List.replicate d.power.toNat '0')
      ++ if l.fractionalZero then ".0" else ""

def scientific (d : Decimal) (top : Int) : String :=
  let digits := (toString d.digits).toList
  String.ofList (digits.take 1)
    ++ (if digits.length ≤ 1 then "" else "." ++ String.ofList (digits.drop 1))
    ++ (if top < 0 then "e-" else "e+") ++ toString top.natAbs

def magnitude (l : NumberLayout) (d : Double) : String :=
  let shortest := d.shortest l.tie
  let top := shortest.power + Decimal.digitCount shortest.digits - 1
  if d.isZero || l.isPositional top then l.positional shortest else scientific shortest top

def write (l : NumberLayout) (d : Double) : String :=
  if d.isNaN then l.notANumber
  else (if d.isNegative then "-" else "") ++ if d.isInfinite then l.infinite else l.magnitude d

end NumberLayout

end MappedSql
