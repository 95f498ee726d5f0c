import MappedSql.Text.LetterCase

/-!
# Choices by name

A choice is a type with finitely many values that go by names, as they stand in settings and
in statements.
-/

namespace MappedSql

class Choice (α : Type) where
  all : List α
  name : α → String

namespace Choice

variable {α : Type} [Choice α]

def ofExactName? (text : String) : Option α :=
  all.find? (name · == text)

def ofName? (text : String) : Option α :=
  all.find? fun a => Text.sameAsciiLetters (name a) text

end Choice

end MappedSql
