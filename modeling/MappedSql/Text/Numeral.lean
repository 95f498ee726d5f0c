/-!
# Whole numbers in text

Digits are the ASCII digits. A plus sign may stand before an unsigned number, and either
sign before a signed one. Leading zeros are allowed, no digits at all are not.
-/

namespace MappedSql.Text

def digits? (s : List Char) : Option Nat :=
  if s.isEmpty || !s.all Char.isDigit then none
  else some (s.foldl (fun n c => n * 10 + (c.toNat - '0'.toNat)) 0)

def unsigned? (limit : Nat) (s : List Char) : Option Nat := do
  let n ← digits? (match s with
    | '+' :: rest => rest
    | s => s)
  if n < limit then some n else none

def signed? (s : List Char) : Option Int64 := do
  let n : Int ← match s with
    | '-' :: rest => (digits? rest).map fun n => -(n : Int)
    | '+' :: rest => (digits? rest).map fun n => (n : Int)
    | s => (digits? s).map fun n => (n : Int)
  if -Int.pow 2 63 ≤ n ∧ n < Int.pow 2 63 then some (Int64.ofInt n) else none

def padded (width n : Nat) : String :=
  let digits := toString n
  String.ofList (List.replicate (width - digits.length) '0') ++ digits

end MappedSql.Text
