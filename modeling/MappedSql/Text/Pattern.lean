import MappedSql.Text.Blank
import MappedSql.Text.Letters
import MappedSql.Text.LetterCase

/-!
# Patterns

A pattern describes texts. Besides characters, choice, sequence and repetition it has
conditions on the place between two characters, such as the start of the text or the edge
of a word. A pattern is matched by its derivatives: the derivative by a character describes
what may still follow that character.
-/

namespace MappedSql.Text

inductive CharSet
  | none
  | range (first last : Nat)
  | digit
  | word
  | blank
  | union (a b : CharSet)
  | complement (a : CharSet)
  deriving DecidableEq, Repr, Inhabited

namespace CharSet

def singleton (c : Char) : CharSet :=
  .range c.toNat c.toNat

def dot : CharSet :=
  .complement (singleton '\n')

def all : CharSet :=
  .complement .none

/-- Membership. Where case does not matter, a range holds a character when it holds any
case variant of it. -/
def contains (anyCase : Bool) (c : Char) : CharSet → Bool
  | .none => false
  | .range first last =>
    let lies (n : Nat) : Bool := first ≤ n && n ≤ last
    lies c.toNat || (anyCase && (caseVariants c.toNat).any lies)
  | .digit => isDecimalDigit c
  | .word => isWordCharacter c
  | .blank => isBlank c
  | .union a b => a.contains anyCase c || b.contains anyCase c
  | .complement a => !a.contains anyCase c

end CharSet

/-- The place between two characters; there is none before the first and after the last. -/
structure Place where
  before : Option Char
  after : Option Char

inductive Anchor
  | start
  | finish
  | wordEdge
  | noWordEdge
  deriving DecidableEq, Repr

def Anchor.holds (p : Place) : Anchor → Bool
  | .start => p.before.isNone
  | .finish => p.after.isNone
  | .wordEdge => p.before.any isWordCharacter != p.after.any isWordCharacter
  | .noWordEdge => p.before.any isWordCharacter == p.after.any isWordCharacter

inductive Pattern
  | never
  | empty
  | anchor (condition : Anchor)
  | char (set : CharSet) (anyCase : Bool)
  | either (a b : Pattern)
  | both (a b : Pattern)
  | times (p : Pattern) (least : Nat) (most : Option Nat)
  deriving DecidableEq, Repr, Inhabited

namespace Pattern

def hasChoice (p : Pattern) : Pattern → Bool
  | .either a b => p == a || hasChoice p b
  | q => p == q

def or : Pattern → Pattern → Pattern
  | .never, q => q
  | .either a b, q => or a (or b q)
  | p, .never => p
  | p, q => if hasChoice p q then q else .either p q

def andThen : Pattern → Pattern → Pattern
  | .never, _ | _, .never => .never
  | .empty, q => q
  | p, .empty => p
  | p, q => .both p q

def matchesEmpty (place : Place) : Pattern → Bool
  | .never => false
  | .empty => true
  | .anchor condition => condition.holds place
  | .char _ _ => false
  | .either a b => a.matchesEmpty place || b.matchesEmpty place
  | .both a b => a.matchesEmpty place && b.matchesEmpty place
  | .times p least _ => least == 0 || p.matchesEmpty place

/-- What may follow the character `c`, which comes after the character `before`. A pattern
that matches the empty text at this place has no repetitions left that it must make. -/
def derivative (before : Option Char) (c : Char) : Pattern → Pattern
  | .never | .empty | .anchor _ => .never
  | .char set anyCase => if set.contains anyCase c then .empty else .never
  | .either a b => (a.derivative before c).or (b.derivative before c)
  | .both a b =>
    let first := (a.derivative before c).andThen b
    if a.matchesEmpty ⟨before, some c⟩ then first.or (b.derivative before c) else first
  | .times p least most =>
    if most = some 0 then .never
    else
      let least := if p.matchesEmpty ⟨before, some c⟩ then 0 else least - 1
      (p.derivative before c).andThen (.times p least (most.map (· - 1)))

def matchesAfter (p : Pattern) (before : Option Char) : List Char → Bool
  | [] => p.matchesEmpty ⟨before, none⟩
  | c :: rest => (p.derivative before c).matchesAfter (some c) rest

def occursIn (p : Pattern) (text : String) : Bool :=
  let anything : Pattern := .times (.char .all false) 0 none
  (anything.both (p.both anything)).matchesAfter none text.toList

end Pattern

end MappedSql.Text
