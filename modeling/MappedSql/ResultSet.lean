import MappedSql.RowBounds
import MappedSql.Text.LetterCase
import MappedSql.Value

/-!
# Results

A result set is a list of rows with the columns that they have in common. Rows can also be
handed out one by one, until the one who takes them has enough.
-/

namespace MappedSql

structure Row where
  columns : List String
  values : List Value
  deriving Repr, Inhabited

namespace Row

/-- The position of a column. Of several columns with the very name the last one counts;
without any, the first with the name in another letter case. -/
def columnIndex? (r : Row) (name : String) : Option Nat :=
  let exact := r.columns.zipIdx.filter (·.1 == name)
  match exact.getLast? with
  | some (_, i) => some i
  | none => r.columns.findIdx? (Text.sameAsciiLetters · name)

def get? (r : Row) (name : String) : Option Value := do
  r.values[← r.columnIndex? name]?

end Row

structure ResultSet where
  rows : List Row := []
  affected : Nat := 0
  columns : Option (List String) := none
  deriving Repr, Inhabited

namespace ResultSet

def addValues (r : ResultSet) (values : List Value) : ResultSet :=
  match r.columns with
  | none => r
  | some columns => { r with rows := r.rows ++ [{ columns, values }], affected := r.affected + 1 }

def addRow (r : ResultSet) (row : Row) : ResultSet where
  rows := r.rows ++ [row]
  affected := r.affected + 1
  columns := some (r.columns.getD row.columns)

def ofValues (columns : List String) (rows : List (List Value)) : ResultSet :=
  rows.foldl addValues { columns := some columns }

def paginate (r : ResultSet) (b : RowBounds) : ResultSet :=
  if b = .unbounded then r
  else
    let rows := b.select r.rows
    { r with rows, affected := rows.length }

/-- The rows that are handed out, with how many they are up to and with each: all, or those
up to the first at which `enough` holds. -/
def handOut (enough : Nat → Row → Bool) (count : Nat) : List Row → List (Nat × Row)
  | [] => []
  | row :: rest =>
    (count + 1, row) ::
      if enough (count + 1) row then [] else handOut enough (count + 1) rest

end ResultSet

end MappedSql
