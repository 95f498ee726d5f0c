import MappedSql.Template.Context
import MappedSql.Text.Blank
import MappedSql.Text.LetterCase

/-!
# Trimming

A trimmed part of a template loses one connective at its start and one at its end, such as
a leading `AND` or a trailing comma, and is then framed by fixed texts, such as `WHERE`.
Letter case does not matter in a connective, and a part without text stays empty.
-/

namespace MappedSql.Template

/-- The texts around a part, and the connectives that are dropped at its start and at its
end. Connectives are written in capital letters. -/
structure Trim where
  opening : Option String := none
  closing : Option String := none
  leading : List String := []
  trailing : List String := []
  deriving Repr

namespace Trim

def splitAtBars : List Char → List Char × List (List Char)
  | [] => ([], [])
  | '|' :: rest =>
    let (first, others) := splitAtBars rest
    ([], first :: others)
  | c :: rest =>
    let (first, others) := splitAtBars rest
    (c :: first, others)

def connectives (list : String) : List String :=
  let (first, others) := splitAtBars list.toList
  ((first :: others).filter (!·.isEmpty)).map fun s => String.ofList (Text.asciiUpper s)

def whereClause : Trim where
  opening := some "WHERE"
  leading := ["AND ", "OR ", "AND\n", "OR\n", "AND\r", "OR\r", "AND\t", "OR\t"]

def setClause : Trim where
  opening := some "SET"
  leading := [","]
  trailing := [","]

/-- How many characters a connective loses its part: blanks around it stay. -/
def width (connective : String) : Nat :=
  (Text.trim connective.toList).length

def dropLeading (connectives : List String) (s : List Char) : List Char :=
  match connectives.find? (·.toList.isPrefixOf (Text.asciiUpper s)) with
  | some connective => s.drop (width connective)
  | none => s

/-- Drops the first of the connectives that the text ends with, with the blanks around the
connective or without them. -/
def dropTrailing (connectives : List String) (s : List Char) : List Char :=
  let ends (connective : String) : Bool :=
    connective.toList.isSuffixOf (Text.asciiUpper s)
      || (Text.trim connective.toList).isSuffixOf (Text.asciiUpper s)
  match connectives.find? ends with
  | some connective => s.take (s.length - width connective)
  | none => s

def frame (t : Trim) (core : String) : String :=
  (t.opening.map (· ++ " ")).getD "" ++ core ++ (t.closing.map (" " ++ ·)).getD ""

def apply (t : Trim) (part : String) : String :=
  match Text.trim part.toList with
  | [] => ""
  | s => t.frame (String.ofList (Text.trim (dropTrailing t.trailing (dropLeading t.leading s))))

def around {α : Type} (t : Trim) (part : Rendering α) : Rendering α := do
  let (result, text) ← Rendering.capture part
  let trimmed := t.apply text
  unless trimmed.isEmpty do Rendering.append trimmed
  return result

end Trim

end MappedSql.Template
