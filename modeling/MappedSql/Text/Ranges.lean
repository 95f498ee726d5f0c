/-!
# Sets of code points

Character classes are given as tables of closed ranges of code points, ascending and
apart. Membership stops at the first range that starts beyond the code point.
-/

namespace MappedSql.Text

abbrev Ranges := List (Nat × Nat)

def Ranges.contains : Ranges → Nat → Bool
  | [], _ => false
  | (lo, hi) :: rest, n => if n < lo then false else n ≤ hi || Ranges.contains rest n

theorem Ranges.contains_cons_of_le {lo hi n : Nat} {rest : Ranges} (h₁ : lo ≤ n) (h₂ : n ≤ hi) :
    Ranges.contains ((lo, hi) :: rest) n := by
  simp [Ranges.contains, h₂, Nat.not_lt.mpr h₁]

end MappedSql.Text
