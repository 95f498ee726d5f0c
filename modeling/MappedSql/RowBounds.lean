/-!
# Row bounds

How many rows of a result are skipped, and how many of the others are kept.
-/

namespace MappedSql

structure RowBounds where
  offset : Nat
  limit : Nat
  deriving DecidableEq, Repr

namespace RowBounds

def noLimit : Nat :=
  Nat.pow 2 64 - 1

def unbounded : RowBounds where
  offset := 0
  limit := noLimit

def select {α : Type} (b : RowBounds) (items : List α) : List α :=
  (items.drop b.offset).take b.limit

end RowBounds

end MappedSql
