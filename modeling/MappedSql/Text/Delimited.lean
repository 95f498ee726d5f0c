/-!
# Delimited spans

A text may hold spans between an opening and a closing delimiter. A delimiter directly
after a backslash is literal, and that backslash is dropped. An opening delimiter that
is never closed is literal together with all that follows it.

`Delimiters.pieces` cuts a text into its literal parts and the contents of its spans, in
order. Replacing puts in the place of every span what a function gives for its content.
Nothing is cut when a delimiter is empty.

A delimiter that itself ends in a backslash can claim the same backslash as an escape:
where an opening delimiter starts directly after such a delimiter, there is no way to
drop the backslash. Such a text has a `clash`, and cutting stops there.
-/

namespace MappedSql.Text

structure Delimiters where
  opening : List Char
  closing : List Char
  deriving DecidableEq, Repr

/-- A part of a text: literal characters, the content of a span, or the place where an
escape would need a backslash that belongs to the delimiter before it. -/
inductive Piece
  | literal (text : List Char)
  | span (content : List Char)
  | clash
  deriving DecidableEq, Repr

def cut (mark : List Char) : List Char → Option (List Char × List Char)
  | [] => none
  | c :: rest =>
    match mark.isPrefixOf? (c :: rest) with
    | some after => some ([], after)
    | none => (cut mark rest).map fun (before, after) => (c :: before, after)

theorem eq_append_of_isPrefixOf? {mark text after : List Char}
    (h : mark.isPrefixOf? text = some after) : text = mark ++ after := by
  induction mark generalizing text with
  | nil => exact Option.some.inj h
  | cons m mark ih =>
    cases text with
    | nil => cases h
    | cons c text =>
      change (if m == c then mark.isPrefixOf? text else none) = some after at h
      split at h
      · rename_i hm
        rw [ih h, eq_of_beq hm, List.cons_append]
      · cases h

theorem eq_append_of_cut {mark text before after : List Char}
    (h : cut mark text = some (before, after)) : text = before ++ mark ++ after := by
  induction text generalizing before with
  | nil => simp [cut] at h
  | cons c text ih =>
    simp only [cut] at h
    split at h
    · rename_i hp
      cases h
      simpa using eq_append_of_isPrefixOf? hp
    · obtain ⟨⟨before', after'⟩, hc, he⟩ := Option.map_eq_some_iff.mp h
      cases he
      simp [ih hc]

theorem length_cut {mark text before after : List Char}
    (h : cut mark text = some (before, after)) :
    text.length = before.length + mark.length + after.length := by
  simp [eq_append_of_cut h]
  omega

/-- The content of a span that has just been opened, up to the first live closing
delimiter, and what follows that delimiter. Escaped closing delimiters belong to the
content, without their backslash. -/
def spanContent (closing : List Char) (text : List Char) : Option (List Char × List Char) :=
  match _hc : cut closing text with
  | none => none
  | some (before, after) =>
    if _hb : before.getLast? = some '\\' then
      (spanContent closing after).map fun (content, rest) =>
        (before.dropLast ++ closing ++ content, rest)
    else
      some (before, after)
termination_by text.length
decreasing_by
  have hl := length_cut _hc
  have : before ≠ [] := by rintro rfl; simp at _hb
  have := List.length_pos_iff.mpr this
  omega

theorem length_spanContent {closing text content rest : List Char}
    (h : spanContent closing text = some (content, rest)) : rest.length ≤ text.length := by
  fun_induction spanContent closing text generalizing content with
  | case1 => cases h
  | case2 text before after hc hb ih =>
    obtain ⟨⟨content', rest'⟩, hs, he⟩ := Option.map_eq_some_iff.mp h
    cases he
    have := ih hs
    have := length_cut hc
    omega
  | case3 text before after hc hb =>
    cases h
    have := length_cut hc
    omega

namespace Delimiters

def piecesAfter (d : Delimiters) (ho : d.opening ≠ []) (last : Option Char)
    (text : List Char) : List Piece :=
  match _hc : cut d.opening text with
  | none => [.literal text]
  | some (before, after) =>
    if (before.getLast?.or last) = some '\\' then
      if before.isEmpty then
        [.clash]
      else
        .literal (before.dropLast ++ d.opening) :: d.piecesAfter ho d.opening.getLast? after
    else
      match _hs : spanContent d.closing after with
      | none => [.literal text]
      | some (content, rest) =>
        .literal before :: .span content :: d.piecesAfter ho d.closing.getLast? rest
termination_by text.length
decreasing_by
  all_goals
    have := length_cut _hc
    have := List.length_pos_iff.mpr ho
  · omega
  · have := length_spanContent _hs
    omega

def pieces (d : Delimiters) (text : String) : List Piece :=
  if ho : d.opening = [] then [.literal text.toList]
  else if d.closing = [] then [.literal text.toList]
  else d.piecesAfter ho none text.toList

end Delimiters

def Piece.content? : Piece → Option String
  | .span content => some (String.ofList content)
  | .literal _ | .clash => none

def Piece.replace (f : String → String) : Piece → String
  | .literal text => String.ofList text
  | .span content => f (String.ofList content)
  | .clash => ""

def Piece.replaceM {m : Type → Type} [Monad m] (f : String → m String) : Piece → m String
  | .literal text => pure (String.ofList text)
  | .span content => f (String.ofList content)
  | .clash => pure ""

namespace Delimiters

def contents (d : Delimiters) (text : String) : List String :=
  (d.pieces text).filterMap Piece.content?

def hasSpans (d : Delimiters) (text : String) : Bool :=
  (d.pieces text).any (·.content?.isSome)

/-- Whether an escape in the text needs a backslash that ends the delimiter before it. -/
def clashes (d : Delimiters) (text : String) : Bool :=
  (d.pieces text).any (· == .clash)

def replace (d : Delimiters) (f : String → String) (text : String) : String :=
  String.join ((d.pieces text).map (Piece.replace f))

def replaceM {m : Type → Type} [Monad m] (d : Delimiters) (f : String → m String)
    (text : String) : m String := do
  return String.join (← (d.pieces text).mapM (Piece.replaceM f))

end Delimiters

end MappedSql.Text
