import MappedSql.Proofs.Occurrences

/-!
# A text as literal text and contents

A text with delimited spans is literal text, and then the contents of its spans, each with the
literal text after it. Replacing the spans fills other texts in for the contents, in order.

What a text is cut into is read off its first opening delimiter: the text has none, or it is
escaped, or it opens a span, which ends or does not.
-/

namespace MappedSql.Text

-- ---------------------------------------------------------------------------
-- Cutting at the first opening delimiter
-- ---------------------------------------------------------------------------

section
variable {s before after content rest : List Char}

theorem getLast?_append_ne {s t : List Char} (hs : s.getLast? ≠ some '\\')
    (ht : t.getLast? ≠ some '\\') : (s ++ t).getLast? ≠ some '\\' := by
  cases t with
  | nil => rwa [List.append_nil]
  | cons c t => rwa [List.getLast?_append_cons]

theorem spanContent_of_cut_none {closing : List Char} (h : cut closing s = none) :
    spanContent closing s = none := by
  rw [spanContent]
  split
  · rfl
  · rename_i hcut
    cases h.symm.trans hcut

theorem spanContent_of_cut {closing : List Char} (h : cut closing s = some (before, after)) :
    spanContent closing s =
      if before.getLast? = some '\\' then
        (spanContent closing after).map fun (content, rest) =>
          (before.dropLast ++ closing ++ content, rest)
      else some (before, after) := by
  rw [spanContent]
  split
  · rename_i hcut
    cases h.symm.trans hcut
  · rename_i hcut
    cases h.symm.trans hcut
    simp

theorem append_of_spanContent {closing : List Char}
    (h : spanContent closing s = some (content, rest)) : ∃ inner, s = inner ++ closing ++ rest := by
  fun_induction spanContent closing s generalizing content with
  | case1 => cases h
  | case2 s before after hcut hlast ih =>
    obtain ⟨⟨content, _⟩, hspan, ⟨⟩⟩ := Option.map_eq_some_iff.mp h
    obtain ⟨inner, hinner⟩ := ih hspan
    exact ⟨before ++ closing ++ inner, by rw [eq_append_of_cut hcut, hinner]; simp⟩
  | case3 s before after hcut hlast =>
    cases h
    exact ⟨before, eq_append_of_cut hcut⟩

namespace Delimiters

variable {d : Delimiters} {ho : d.opening ≠ []} {last : Option Char}

theorem pieces_eq (ho : d.opening ≠ []) (hc : d.closing ≠ []) (text : String) :
    d.pieces text = d.piecesAfter ho none text.toList := by
  rw [pieces, dif_neg ho, if_neg hc]

theorem piecesAfter_unopened (h : cut d.opening s = none) :
    d.piecesAfter ho last s = [.literal s] := by
  rw [piecesAfter]
  split
  · rfl
  · rename_i hcut
    cases h.symm.trans hcut

theorem piecesAfter_escaped (h : cut d.opening s = some (before, after)) (hbefore : before ≠ [])
    (hlast : before.getLast? = some '\\') :
    d.piecesAfter ho last s =
      .literal (before.dropLast ++ d.opening) ::
        d.piecesAfter ho d.opening.getLast? after := by
  rw [piecesAfter]
  split
  · rename_i hcut
    cases h.symm.trans hcut
  · rename_i hcut
    cases h.symm.trans hcut
    simp [hlast, hbefore]

theorem piecesAfter_clash (h : cut d.opening s = some ([], after)) (hlast : last = some '\\') :
    d.piecesAfter ho last s = [.clash] := by
  rw [piecesAfter]
  split
  · rename_i hcut
    cases h.symm.trans hcut
  · rename_i hcut
    cases h.symm.trans hcut
    simp [hlast]

/-- The pieces of a text that starts with the span of a live opening delimiter, after which there
is the text `after`. -/
def piecesOpened (d : Delimiters) (ho : d.opening ≠ []) (before after : List Char) : List Piece :=
  match spanContent d.closing after with
  | none => [.literal (before ++ d.opening ++ after)]
  | some (content, rest) =>
    .literal before :: .span content :: d.piecesAfter ho d.closing.getLast? rest

theorem piecesAfter_opened (h : cut d.opening s = some (before, after))
    (hlast : before.getLast?.or last ≠ some '\\') :
    d.piecesAfter ho last s = d.piecesOpened ho before after := by
  rw [piecesAfter, piecesOpened]
  split
  · rename_i hcut
    cases h.symm.trans hcut
  · rename_i hcut
    cases h.symm.trans hcut
    rw [if_neg hlast, eq_append_of_cut h]
    split
    · rename_i hspan
      rw [hspan]
    · rename_i hspan
      rw [hspan]

end Delimiters
end

-- ---------------------------------------------------------------------------
-- Literal text and contents
-- ---------------------------------------------------------------------------

/-- Literal text, and then contents of spans, each with the literal text after it. -/
structure Spanned where
  start : String
  spans : List (String × String)
  deriving DecidableEq, Repr

namespace Spanned

def contents (t : Spanned) : List String :=
  t.spans.map Prod.fst

def literals (t : Spanned) : List String :=
  t.start :: t.spans.map Prod.snd

def prepend (text : String) (t : Spanned) : Spanned :=
  { t with start := text ++ t.start }

/-- Literal pieces that follow each other are one literal text. -/
def ofPieces : List Piece → Spanned
  | [] => ⟨"", []⟩
  | .literal text :: ps => (ofPieces ps).prepend (String.ofList text)
  | .span content :: ps =>
    ⟨"", (String.ofList content, (ofPieces ps).start) :: (ofPieces ps).spans⟩
  | .clash :: ps => ofPieces ps

def fill (f : String → String) (t : Spanned) : String :=
  t.start ++ String.join (t.spans.map fun (content, after) => f content ++ after)

def weave (t : Spanned) (texts : List String) : String :=
  t.start ++ String.join (texts.zipWith (· ++ ·) (t.spans.map Prod.snd))

def fillM {m : Type → Type} [Monad m] (f : String → m String) (t : Spanned) : m String :=
  t.weave <$> t.contents.mapM f

variable {m : Type → Type} [Monad m] [LawfulMonad m]

theorem fillM_prepend (f : String → m String) (text : String) (t : Spanned) :
    (t.prepend text).fillM f = (text ++ ·) <$> t.fillM f := by
  have hweave : (t.prepend text).weave = (text ++ ·) ∘ t.weave :=
    funext fun texts => String.append_assoc
  rw [fillM, fillM, hweave, comp_map]
  rfl

theorem fillM_cons (f : String → m String) (content : String) (t : Spanned) :
    fillM f ⟨"", (content, t.start) :: t.spans⟩ =
      f content >>= fun text => (text ++ ·) <$> t.fillM f := by
  simp [fillM, weave, contents, String.append_assoc]

theorem fill_prepend (f : String → String) (text : String) (t : Spanned) :
    (t.prepend text).fill f = text ++ t.fill f :=
  String.append_assoc

theorem fill_cons (f : String → String) (content : String) (t : Spanned) :
    fill f ⟨"", (content, t.start) :: t.spans⟩ = f content ++ t.fill f := by
  simp [fill, String.append_assoc]

theorem fill_ofPieces (f : String → String) (ps : List Piece) :
    (ofPieces ps).fill f = String.join (ps.map (Piece.replace f)) := by
  induction ps with
  | nil => rfl
  | cons p ps ih =>
    rw [List.map_cons, String.join_cons, ← ih]
    cases p with
    | literal text => exact fill_prepend f _ _
    | span content => exact fill_cons f _ _
    | clash => simp [ofPieces, Piece.replace]

theorem fillM_ofPieces (f : String → m String) (ps : List Piece) :
    (ofPieces ps).fillM f = String.join <$> ps.mapM (Piece.replaceM f) := by
  induction ps with
  | nil => simp [ofPieces, fillM, weave, contents]
  | cons p ps ih =>
    have hjoin : String.join <$> (p :: ps).mapM (Piece.replaceM f) =
        p.replaceM f >>= fun text => (text ++ ·) <$> (ofPieces ps).fillM f := by
      simp [ih, String.join_cons]
    rw [hjoin]
    cases p with
    | literal text => simp [ofPieces, fillM_prepend, Piece.replaceM]
    | span content => exact fillM_cons f _ _
    | clash => simp [ofPieces, Piece.replaceM]

theorem contents_ofPieces (ps : List Piece) :
    (ofPieces ps).contents = ps.filterMap Piece.content? := by
  induction ps with
  | nil => rfl
  | cons p ps ih =>
    cases p with
    | literal text => exact ih
    | span content => exact congrArg (String.ofList content :: ·) ih
    | clash => exact ih

end Spanned

-- ---------------------------------------------------------------------------
-- Replacing
-- ---------------------------------------------------------------------------

namespace Delimiters

variable {d : Delimiters}

def spanned (d : Delimiters) (text : String) : Spanned :=
  .ofPieces (d.pieces text)

theorem replace_eq_fill (f : String → String) (text : String) :
    d.replace f text = (d.spanned text).fill f :=
  (Spanned.fill_ofPieces f _).symm

theorem replaceM_eq_fillM {m : Type → Type} [Monad m] [LawfulMonad m] (f : String → m String)
    (text : String) : d.replaceM f text = (d.spanned text).fillM f := by
  rw [spanned, Spanned.fillM_ofPieces, replaceM, bind_pure_comp]

theorem contents_spanned (text : String) : (d.spanned text).contents = d.contents text :=
  Spanned.contents_ofPieces _

end Delimiters

end MappedSql.Text
