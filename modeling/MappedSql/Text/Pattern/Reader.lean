import MappedSql.Text.Numeral
import MappedSql.Text.Pattern

/-!
# Reading patterns

A pattern is written with the usual marks: `.` for any character but the line feed, classes
in brackets, `|` between choices, parentheses around groups, `*`, `+`, `?` and bounds in
braces for repetition, and `^` and `$` for the start and the end of the text. The group
`(?i)` makes the rest of the group around it ignore the case of letters.

The text is first cut into marks. These are then put together from left to right, with the
groups that are still open on a stack.
-/

namespace MappedSql.Text.Pattern

inductive Mark
  | item (set : CharSet)
  | anchor (condition : Anchor)
  | opening (anyCase : Option Bool)
  | closing
  | bar
  | anyCase (value : Bool)
  | repetition (least : Nat) (most : Option Nat)
  deriving Repr

def escapedChar? (c : Char) : Option Char :=
  match c with
  | 'n' => some '\n'
  | 't' => some '\t'
  | 'r' => some '\r'
  | 'a' => some '\x07'
  | 'f' => some '\x0c'
  | 'v' => some '\x0b'
  | '<' | '>' => none
  | c => if c.toNat < 0x80 && !c.isAlphanum then some c else none

def escapedSet? (c : Char) : Option CharSet :=
  match c with
  | 'd' => some .digit
  | 'D' => some (.complement .digit)
  | 'w' => some .word
  | 'W' => some (.complement .word)
  | 's' => some .blank
  | 'S' => some (.complement .blank)
  | c => (escapedChar? c).map .singleton

def range? (first last : Char) : Option CharSet :=
  if first ≤ last then some (.range first.toNat last.toNat) else none

/-- A class in the making: whether it is negated, and what is in it. -/
abbrev OpenClass := Bool × CharSet

def closeClass : OpenClass → CharSet
  | (true, set) => .complement set
  | (false, set) => set

def addToClass (set : CharSet) : List OpenClass → List OpenClass
  | [] => []
  | (negated, members) :: outer => (negated, .union members set) :: outer

def readChar? : List Char → Option (Char × List Char)
  | [] => none
  | '\\' :: rest =>
    match rest with
    | [] => none
    | c :: rest => (escapedChar? c).map (·, rest)
  | c :: rest => some (c, rest)

/-- What a range goes on to after its first character: none where no minus sign stands
between two characters. -/
def readRangeEnd? : List Char → Option (List Char)
  | '-' :: c :: rest => if c = '-' ∨ c = ']' then none else some (c :: rest)
  | _ => none

/-- One member of a class, and what follows it. A minus sign between two characters makes
a range of them, and a set is no end of a range. -/
def readMember (s : List Char) : Option (CharSet × List Char) :=
  match readChar? s with
  | some (first, rest) =>
    match (if first = '-' then none else readRangeEnd? rest) with
    | none => some (.singleton first, rest)
    | some rest => (readChar? rest).bind fun (last, rest) => (range? first last).map (·, rest)
  | none =>
    match s with
    | _ :: c :: rest =>
      if (readRangeEnd? rest).isSome then none else (escapedSet? c).map (·, rest)
    | _ => none

theorem length_readChar? {s after : List Char} {c : Char}
    (h : readChar? s = some (c, after)) : after.length < s.length := by
  unfold readChar? at h
  split at h
  · cases h
  · split at h <;> grind [Option.map_eq_some_iff]
  · grind [Option.map_eq_some_iff]

theorem length_readRangeEnd? {s after : List Char} (h : readRangeEnd? s = some after) :
    after.length < s.length := by
  unfold readRangeEnd? at h
  grind [Option.map_eq_some_iff]

theorem length_readMember {s after : List Char} {set : CharSet}
    (h : readMember s = some (set, after)) : after.length < s.length := by
  unfold readMember at h
  split at h
  · rename_i first rest hc
    have := length_readChar? hc
    split at h
    · grind [Option.map_eq_some_iff]
    · rename_i rest' he
      obtain ⟨⟨last, rest''⟩, hl, hr⟩ := Option.bind_eq_some_iff.mp h
      have := length_readChar? hl
      have : rest'.length < rest.length := by
        split at he
        · cases he
        · exact length_readRangeEnd? he
      grind [Option.map_eq_some_iff]
  · grind [Option.map_eq_some_iff]

/-- A class and what follows it. Classes may hold classes; a closing bracket at the very
start of a class is a member of it. -/
def readClass (stack : List OpenClass) (s : List Char) : Option (CharSet × List Char) :=
  match s with
  | [] => none
  | '[' :: '^' :: ']' :: rest => readClass ((true, .singleton ']') :: stack) rest
  | '[' :: '^' :: rest => readClass ((true, .none) :: stack) rest
  | '[' :: ']' :: rest => readClass ((false, .singleton ']') :: stack) rest
  | '[' :: rest => readClass ((false, .none) :: stack) rest
  | ']' :: rest =>
    match stack with
    | [] => none
    | [innermost] => some (closeClass innermost, rest)
    | innermost :: outer => readClass (addToClass (closeClass innermost) outer) rest
  | c :: rest =>
    match _h : readMember (c :: rest) with
    | none => none
    | some (set, after) => readClass (addToClass set stack) after
termination_by s.length
decreasing_by
  all_goals first
    | exact length_readMember _h
    | simp only [List.length_cons]; omega

theorem length_readClass {stack : List OpenClass} {s after : List Char} {set : CharSet}
    (h : readClass stack s = some (set, after)) : after.length < s.length := by
  fun_induction readClass stack s with
  | case1 => cases h
  | case6 => cases h
  | case7 => cases h; simp
  | case9 => cases h
  | case10 =>
    rename_i hm ih
    exact Nat.lt_trans (ih h) (length_readMember hm)
  | _ =>
    rename_i ih
    have := ih h
    simp only [List.length_cons]
    omega

def readBounds? (text : List Char) : Option Mark := do
  let count (s : List Char) : Option Nat := do
    let n ← digits? (trim s)
    if n < Nat.pow 2 32 then some n else none
  let least ← count (text.takeWhile (· != ','))
  match text.dropWhile (· != ',') with
  | [] => return .repetition least (some least)
  | _ :: [] => return .repetition least none
  | _ :: rest => do
    let most ← count rest
    if least ≤ most then return .repetition least (some most) else none

def readMark (c : Char) (rest : List Char) : Option (Mark × List Char) :=
  match c with
  | '(' =>
    match rest with
    | '?' :: ':' :: rest => some (.opening none, rest)
    | '?' :: 'i' :: ':' :: rest => some (.opening (some true), rest)
    | '?' :: 'i' :: ')' :: rest => some (.anyCase true, rest)
    | '?' :: '-' :: 'i' :: ':' :: rest => some (.opening (some false), rest)
    | '?' :: '-' :: 'i' :: ')' :: rest => some (.anyCase false, rest)
    | '?' :: _ => none
    | rest => some (.opening none, rest)
  | ')' => some (.closing, rest)
  | '|' => some (.bar, rest)
  | '^' => some (.anchor .start, rest)
  | '$' => some (.anchor .finish, rest)
  | '.' => some (.item .dot, rest)
  | '*' => some (.repetition 0 none, rest)
  | '+' => some (.repetition 1 none, rest)
  | '?' => some (.repetition 0 (some 1), rest)
  | '\x7b' =>
    match rest.dropWhile (· != '\x7d') with
    | [] => none
    | _ :: after => (readBounds? (rest.takeWhile (· != '\x7d'))).map (·, after)
  | '[' => (readClass [] (c :: rest)).map fun (set, after) => (.item set, after)
  | '\\' =>
    match rest with
    | [] => none
    | 'A' :: rest => some (.anchor .start, rest)
    | 'z' :: rest => some (.anchor .finish, rest)
    | 'b' :: rest => some (.anchor .wordEdge, rest)
    | 'B' :: rest => some (.anchor .noWordEdge, rest)
    | c :: rest => (escapedSet? c).map (.item ·, rest)
  | c => some (.item (.singleton c), rest)

theorem length_readMark {c : Char} {rest after : List Char} {mark : Mark}
    (h : readMark c rest = some (mark, after)) : after.length ≤ rest.length := by
  unfold readMark at h
  split at h
  case h_10 =>
    have hl : (rest.dropWhile (· != '\x7d')).length ≤ rest.length :=
      (List.dropWhile_sublist _).length_le
    grind [Option.map_eq_some_iff]
  case h_11 =>
    obtain ⟨⟨set, after'⟩, hc, he⟩ := Option.map_eq_some_iff.mp h
    cases he
    have := length_readClass hc
    simp only [List.length_cons] at this
    omega
  all_goals grind [Option.map_eq_some_iff]

/-- A repetition mark may have a question mark after it, which is about the order of
attempts and not about which texts are described. -/
def dropPreference : Mark → List Char → List Char
  | .repetition .., '?' :: rest => rest
  | _, rest => rest

theorem length_dropPreference (mark : Mark) (rest : List Char) :
    (dropPreference mark rest).length ≤ rest.length := by
  unfold dropPreference
  split <;> simp

def marks? (s : List Char) : Option (List Mark) :=
  match s with
  | [] => some []
  | c :: rest =>
    match _h : readMark c rest with
    | none => none
    | some (mark, after) => (marks? (dropPreference mark after)).map (mark :: ·)
termination_by s.length
decreasing_by
  have := length_readMark _h
  have := length_dropPreference mark after
  simp only [List.length_cons]
  omega

/-- A group that is still open: whether case matters in it, the choices before the last
bar, and the items after it, the last one first. -/
structure Group where
  anyCase : Bool
  choices : Pattern := .never
  items : List Pattern := []
  /-- The last mark was an item that can be repeated. -/
  repeatable : Bool := false

namespace Group

def lastChoice (g : Group) : Pattern :=
  g.items.foldl (fun p item => item.andThen p) .empty

def toPattern (g : Group) : Pattern :=
  g.choices.or g.lastChoice

def add (g : Group) (p : Pattern) : Group :=
  { g with items := p :: g.items, repeatable := true }

def repeatLast? (g : Group) (least : Nat) (most : Option Nat) : Option Group :=
  match g.items with
  | p :: rest => if g.repeatable then some { g with items := .times p least most :: rest } else none
  | [] => none

end Group

def place? : List Group → Mark → Option (List Group)
  | [], _ => none
  | g :: outer, mark =>
    match mark with
    | .item set => some (g.add (.char set g.anyCase) :: outer)
    | .anchor condition => some (g.add (.anchor condition) :: outer)
    | .opening anyCase => some ({ anyCase := anyCase.getD g.anyCase } :: g :: outer)
    | .closing =>
      match outer with
      | [] => none
      | h :: outer => some (h.add g.toPattern :: outer)
    | .bar =>
      some ({ g with choices := g.toPattern, items := [], repeatable := false } :: outer)
    | .anyCase value => some ({ g with anyCase := value, repeatable := false } :: outer)
    | .repetition least most => (g.repeatLast? least most).map (· :: outer)

def ofText? (text : String) : Option Pattern := do
  match ← (← marks? text.toList).foldlM place? [{ anyCase := false }] with
  | [g] => some g.toPattern
  | _ => none

end MappedSql.Text.Pattern
