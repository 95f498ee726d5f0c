import MappedSql.Argument
import MappedSql.Expression.Token

/-!
# Comparing arguments

Whole numbers and binary64 numbers are compared with each other as numbers, where a whole
number is first rounded to binary64. Texts, timestamps and truth values are compared with
their own kind. Null is equal to null and to nothing else, and no order holds with it.
-/

namespace MappedSql.Expression

inductive Number
  | int (value : Int64)
  | double (value : Double)

namespace Number

def ofArgument? : Argument → Option Number
  | .value (.int n) => some (.int n)
  | .value (.double d) => some (.double d)
  | _ => none

def toDouble : Number → Double
  | .int n => .ofInt n.toInt
  | .double d => d

/-- The order of two numbers; none where one is a NaN. -/
def compare? : Number → Number → Option Ordering
  | .int a, .int b => some (compare a.toInt b.toInt)
  | a, b => a.toDouble.compare? b.toDouble

end Number

def equals (a b : Argument) : Bool :=
  if a.isNull || b.isNull then a.isNull && b.isNull
  else
    match Number.ofArgument? a, Number.ofArgument? b with
    | some m, some n => m.compare? n == some .eq
    | _, _ => a.same b

def ordering? (a b : Argument) : Option Ordering :=
  match Number.ofArgument? a, Number.ofArgument? b with
  | some m, some n => m.compare? n
  | _, _ =>
    match a, b with
    | .value (.text s), .value (.text t) => some (compare s t)
    | .value (.timestamp s), .value (.timestamp t) => some (compare s t)
    | .value (.boolean s), .value (.boolean t) => some (compare s t)
    | _, _ => none

def Comparison.holds : Comparison → Ordering → Bool
  | .eq, o => o.isEq
  | .ne, o => o.isNe
  | .lt, o => o.isLT
  | .le, o => o.isLE
  | .gt, o => o.isGT
  | .ge, o => o.isGE

def compareBy (op : Comparison) (a b : Argument) : Except Fault Bool :=
  match op with
  | .eq => .ok (equals a b)
  | .ne => .ok (!equals a b)
  | op =>
    if a.isNull || b.isNull then .ok false
    else
      match ordering? a b with
      | some o => .ok (op.holds o)
      | none => .error (.incomparable a.type b.type)

end MappedSql.Expression
