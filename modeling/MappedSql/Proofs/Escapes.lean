import MappedSql.Proofs.Renderings
import MappedSql.Proofs.Spans

/-!
# Escapes are decoded

A text is written so that nothing in it is taken for a delimiter by mistake: a backslash before
each opening delimiter in literal text, and before each closing one in a content. Cutting that
text gives back the literal text and the contents, so that what replaces spans is called on
exactly the contents, in order.

The induction is on the occurrences of a delimiter, each of which is found together with its
backslash. It needs delimiters without backslashes that do not overlap themselves. Where literal
text ends in a backslash, the delimiter after it counts as escaped.
-/

namespace MappedSql.Text

-- ---------------------------------------------------------------------------
-- Writing
-- ---------------------------------------------------------------------------

def escape (mark : List Char) : List Char → List Char
  | [] => []
  | c :: s => if mark <+: c :: s then '\\' :: c :: escape mark s else c :: escape mark s

def Delimiters.written (d : Delimiters) (span : String × String) : List Char :=
  d.opening ++ escape d.closing span.1.toList ++ d.closing ++ escape d.opening span.2.toList

/-- The text that is read as this literal text and these contents. -/
def Spanned.encode (d : Delimiters) (t : Spanned) : String :=
  String.ofList (escape d.opening t.start.toList ++ t.spans.flatMap d.written)

-- ---------------------------------------------------------------------------
-- Reading
-- ---------------------------------------------------------------------------

section
variable {mark s t before after : List Char}

theorem escape_append (h : ∀ tail, tail <:+ s → tail ≠ [] → ¬mark <+: tail ++ t) :
    escape mark (s ++ t) = s ++ escape mark t := by
  induction s with
  | nil => rfl
  | cons c s ih =>
    have hc := h (c :: s) (List.suffix_refl _) (List.cons_ne_nil _ _)
    rw [List.cons_append] at hc ⊢
    rw [escape, if_neg hc, ih fun tail htail => h tail (htail.trans (List.suffix_cons c s))]
    rfl

theorem escape_of_absent (h : ¬mark <:+: s) : escape mark s = s := by
  have hescape : escape mark (s ++ []) = s ++ escape mark [] := by
    refine escape_append fun tail htail _ hstarts => h ?_
    rw [List.append_nil] at hstarts
    exact hstarts.isInfix.trans htail.isInfix
  simpa [escape] using hescape

theorem escape_at_occurrence (hmark : mark ≠ []) (hborder : Unbordered mark)
    (hbefore : ¬mark <:+: before ++ mark.dropLast) :
    escape mark (before ++ mark ++ after) = before ++ '\\' :: mark ++ escape mark after := by
  have hstart : escape mark (before ++ (mark ++ after)) =
      before ++ escape mark (mark ++ after) := by
    refine escape_append fun tail htail htail' hstarts => hbefore ?_
    obtain ⟨c, tail, rfl⟩ := List.exists_cons_of_ne_nil htail'
    rw [List.cons_append, ← List.append_assoc, prefix_before_iff] at hstarts
    refine hstarts.isInfix.trans ?_
    obtain ⟨start, rfl⟩ := htail
    exact ⟨start, [], by simp⟩
  obtain ⟨m, rest, rfl⟩ := List.exists_cons_of_ne_nil hmark
  have hrest : escape (m :: rest) (rest ++ after) = rest ++ escape (m :: rest) after := by
    refine escape_append fun tail htail htail' hstarts => ?_
    have hlength := htail.length_le
    have hshort : tail <+: m :: rest :=
      List.prefix_of_prefix_length_le (List.prefix_append _ _) hstarts (by
        rw [List.length_cons]
        omega)
    rcases hborder tail ((List.mem_tails _ _).mpr (htail.trans (List.suffix_cons m rest))) hshort
      with rfl | rfl
    · exact htail' rfl
    · rw [List.length_cons] at hlength
      omega
  have hmark' : m :: rest <+: m :: (rest ++ after) := List.prefix_append (m :: rest) after
  rw [List.append_assoc, hstart, List.cons_append, escape, if_pos hmark', hrest]
  simp

/-- What ends in no backslash has no end that does. -/
theorem getLast?_ne_of_append (hlast : (s ++ t).getLast? ≠ some '\\') :
    t.getLast? ≠ some '\\' := by
  intro ht
  rw [List.getLast?_append, ht] at hlast
  exact hlast rfl

/-- A mark that escapes can be written for: it is not empty, holds no backslash and does not
overlap itself. -/
structure Escapable (mark : List Char) : Prop where
  ne_nil : mark ≠ []
  no_backslash : '\\' ∉ mark
  unbordered : Unbordered mark

namespace Escapable

variable (h : Escapable mark)
include h

theorem getLast?_ne : mark.getLast? ≠ some '\\' :=
  fun hlast => h.no_backslash (List.mem_of_getLast? hlast)

theorem cut_escaped (hbefore : ¬mark <:+: before ++ mark.dropLast) (t : List Char) :
    cut mark (escape mark (before ++ mark ++ after) ++ t) =
      some (before ++ ['\\'], escape mark after ++ t) := by
  -- The added backslash makes no occurrence of its own, as there is none in the delimiter.
  have hbefore' : ¬mark <:+: before ++ '\\' :: mark.dropLast := by
    rw [infix_append_cons_iff h.no_backslash, not_or]
    exact ⟨fun hoccurs => hbefore (List.infix_append_of_infix_left hoccurs),
      absent_dropLast h.ne_nil⟩
  rw [escape_at_occurrence h.ne_nil h.unbordered hbefore, cut_eq_some_iff h.ne_nil]
  exact ⟨by simp, by simpa using hbefore'⟩

end Escapable
end

theorem spanContent_escape {mark s : List Char} (h : Escapable mark)
    (hlast : s.getLast? ≠ some '\\') (rest : List Char) :
    spanContent mark (escape mark s ++ mark ++ rest) = some (s, rest) := by
  cases hcut : cut mark s with
  | none =>
    have hs := (cut_eq_none_iff h.ne_nil).mp hcut
    rw [escape_of_absent hs, spanContent_of_cut (h.unbordered.cut_append h.ne_nil hs rest),
      if_neg hlast]
  | some parts =>
    obtain ⟨before, after⟩ := parts
    obtain ⟨hs, hbefore⟩ := (cut_eq_some_iff h.ne_nil).mp hcut
    have hshorter := length_cut hcut
    rw [hs] at hlast ⊢
    rw [List.append_assoc, spanContent_of_cut (h.cut_escaped hbefore _), if_pos (by simp),
      ← List.append_assoc, spanContent_escape h (getLast?_ne_of_append hlast) rest]
    simp
termination_by s.length
decreasing_by
  have := List.length_pos_iff.mpr h.ne_nil
  omega

namespace Delimiters

variable {d : Delimiters} {ho : d.opening ≠ []}

theorem ofPieces_piecesOpened (s before after : List Char) :
    Spanned.ofPieces (d.piecesOpened ho (s ++ before) after) =
      (Spanned.ofPieces (d.piecesOpened ho before after)).prepend (String.ofList s) := by
  unfold piecesOpened
  split <;> simp [Spanned.ofPieces, Spanned.prepend, String.ofList_append]

/-- What follows an escaped literal text: nothing, or a live opening delimiter. -/
theorem ofPieces_literal (h : Escapable d.opening) {s t : List Char} {last : Option Char}
    (hlast : last ≠ some '\\') (ht : t = [] ∨ s.getLast? ≠ some '\\' ∧ d.opening <+: t) :
    Spanned.ofPieces (d.piecesAfter ho last (escape d.opening s ++ t)) =
      (Spanned.ofPieces (d.piecesAfter ho none t)).prepend (String.ofList s) := by
  -- By induction on the escaped delimiters of the literal text: each makes a piece of its own, and
  -- all of them are put together again with the text before the next live one.
  cases hcut : cut d.opening s with
  | some parts =>
    obtain ⟨before, after⟩ := parts
    obtain ⟨hs, hbefore⟩ := (cut_eq_some_iff h.ne_nil).mp hcut
    have hshorter := length_cut hcut
    have ht' : t = [] ∨ after.getLast? ≠ some '\\' ∧ d.opening <+: t :=
      ht.imp_right fun ⟨hend, hstarts⟩ => ⟨getLast?_ne_of_append (hs ▸ hend), hstarts⟩
    rw [hs, piecesAfter_escaped (h.cut_escaped hbefore t) (by simp) (by simp), Spanned.ofPieces,
      ofPieces_literal h h.getLast?_ne ht']
    simp [Spanned.prepend, String.ofList_append, String.append_assoc]
  | none =>
    have hs := (cut_eq_none_iff h.ne_nil).mp hcut
    rw [escape_of_absent hs]
    rcases ht with rfl | ⟨hend, t, rfl⟩
    · have hcut : cut d.opening (s ++ []) = none := by
        rw [List.append_nil]
        exact (cut_eq_none_iff h.ne_nil).mpr hs
      rw [piecesAfter_unopened hcut, piecesAfter_unopened rfl]
      simp [Spanned.ofPieces, Spanned.prepend]
    · have hlive : s.getLast?.or last ≠ some '\\' := by
        cases hend' : s.getLast? with
        | none => simpa using hlast
        | some c => simpa [hend'] using hend
      rw [← List.append_assoc,
        piecesAfter_opened (h.unbordered.cut_append h.ne_nil hs t) hlive,
        piecesAfter_opened (cut_append_self h.ne_nil t) (by simp),
        ← List.append_nil s, ofPieces_piecesOpened, List.append_nil]
termination_by s.length
decreasing_by
  have := List.length_pos_iff.mpr h.ne_nil
  omega

theorem ofPieces_encode (hopening : Escapable d.opening) (hclosing : Escapable d.closing)
    (start : String) (spans : List (String × String)) {last : Option Char}
    (hlast : last ≠ some '\\')
    (hliterals : ∀ literal ∈ (start :: spans.map Prod.snd).dropLast,
      literal.toList.getLast? ≠ some '\\')
    (hcontents : ∀ content ∈ spans.map Prod.fst, content.toList.getLast? ≠ some '\\') :
    Spanned.ofPieces (d.piecesAfter ho last
      (escape d.opening start.toList ++ spans.flatMap d.written)) = ⟨start, spans⟩ := by
  induction spans generalizing start last with
  | nil =>
    rw [List.flatMap_nil, ofPieces_literal hopening hlast (.inl rfl), piecesAfter_unopened rfl]
    simp [Spanned.ofPieces, Spanned.prepend]
  | cons span spans ih =>
    obtain ⟨content, after⟩ := span
    rw [List.map_cons, List.dropLast_cons_cons, List.forall_mem_cons] at hliterals
    rw [List.map_cons, List.forall_mem_cons] at hcontents
    have hspan := spanContent_escape hclosing hcontents.1
      (escape d.opening after.toList ++ spans.flatMap d.written)
    have hstarts : d.opening <+: (((content, after) :: spans).flatMap d.written) := by
      rw [List.flatMap_cons, written]
      simp
    rw [ofPieces_literal hopening hlast (.inr ⟨hliterals.1, hstarts⟩), List.flatMap_cons, written]
    simp only [List.append_assoc] at hspan ⊢
    rw [piecesAfter_opened (cut_append_self hopening.ne_nil _) (by simp), piecesOpened, hspan]
    simp only [Spanned.ofPieces, ih after hclosing.getLast?_ne hliterals.2 hcontents.2]
    simp [Spanned.prepend]

theorem spanned_encode (hopening : Escapable d.opening) (hclosing : Escapable d.closing)
    {t : Spanned}
    (hliterals : ∀ literal ∈ t.literals.dropLast, literal.toList.getLast? ≠ some '\\')
    (hcontents : ∀ content ∈ t.contents, content.toList.getLast? ≠ some '\\') :
    d.spanned (t.encode d) = t := by
  rw [spanned, pieces_eq hopening.ne_nil hclosing.ne_nil, Spanned.encode, String.toList_ofList]
  exact ofPieces_encode hopening hclosing t.start t.spans (by simp) hliterals hcontents

theorem clashes_of_escapable (hopening : Escapable d.opening) (hclosing : Escapable d.closing)
    (text : String) : d.clashes text = false := by
  rw [clashes, pieces_eq hopening.ne_nil hclosing.ne_nil, List.any_eq_false]
  suffices h : ∀ (last : Option Char) (s : List Char), last ≠ some '\\' →
      .clash ∉ d.piecesAfter hopening.ne_nil last s by
    intro p hp hclash
    exact h none text.toList (by simp) (eq_of_beq hclash ▸ hp)
  intro last s hlast
  fun_induction piecesAfter d hopening.ne_nil last s with
  | case1 => simp
  | case2 last s before after hcut hescaped hbefore =>
    obtain rfl := List.isEmpty_iff.mp hbefore
    exact absurd hescaped hlast
  | case3 last s before after hcut hescaped hbefore ih => simpa using ih hopening.getLast?_ne
  | case4 => simp
  | case5 last s before after hcut hescaped content rest hspan ih =>
    simpa using ih hclosing.getLast?_ne

end Delimiters

-- ---------------------------------------------------------------------------
-- Calls
-- ---------------------------------------------------------------------------

section
variable {σ : Type}

/-- Takes the content down, and then does what `f` does with it. -/
def recorded (f : String → Action σ String) (content : String) :
    Action (List String × σ) String := do
  modify fun (calls, s) => (calls ++ [content], s)
  (f content).onSecond

variable {f : String → Action σ String} {calls contents texts : List String} {s s' : σ}

theorem outcome_recorded (content : String) (calls : List String) (s : σ) :
    (recorded f content).outcome (calls, s) =
      (((f content).outcome s).1, (calls ++ [content], ((f content).outcome s).2)) := by
  rw [recorded, Action.outcome_bind]
  rfl

theorem recorded_ok (h : (contents.mapM f).outcome s = (.ok texts, s')) (calls : List String) :
    (contents.mapM (recorded f)).outcome (calls, s) = (.ok texts, (calls ++ contents, s')) := by
  induction contents generalizing calls s texts with
  | nil =>
    cases h
    simp
  | cons content rest ih =>
    simp only [List.mapM_cons, Action.outcome_bind_ok, Action.outcome_pure, Prod.mk.injEq,
      Except.ok.injEq] at h ⊢
    obtain ⟨text, s₁, hfirst, texts, _, hrest, rfl, rfl⟩ := h
    refine ⟨text, (calls ++ [content], s₁), ?_, texts, _, ih hrest _, rfl, by simp⟩
    rw [outcome_recorded, hfirst]

theorem recorded_error {content : String} {rest : List String} {s₁ : σ} {e : Error}
    (h : (contents.mapM f).outcome s = (.ok texts, s₁))
    (he : (f content).outcome s₁ = (.error e, s')) (calls : List String) :
    ((contents ++ content :: rest).mapM (recorded f)).outcome (calls, s) =
      (.error e, (calls ++ contents ++ [content], s')) := by
  rw [List.mapM_append, Action.outcome_bind, recorded_ok h]
  dsimp only
  rw [Action.outcome_bind, List.mapM_cons, Action.outcome_bind, outcome_recorded, he]

end

/-- A text that is written with escapes is read as what it was written from: the literal text is
kept, and what replaces the spans is called on the contents in order, until it fails. -/
theorem escapes_are_decoded {d : Delimiters} {t : Spanned}
    (hd : d ∈ [Placeholder.delimiters, Template.Node.substitutions])
    (hliterals : ∀ literal ∈ t.literals.dropLast, literal.toList.getLast? ≠ some '\\')
    (hcontents : ∀ content ∈ t.contents, content.toList.getLast? ≠ some '\\')
    {σ : Type} (f : String → Action σ String) (s : σ) :
    d.clashes (t.encode d) = false ∧
      (∀ texts s', (t.contents.mapM f).outcome s = (.ok texts, s') →
        (d.replaceM (recorded f) (t.encode d)).outcome ([], s) =
          (.ok (t.weave texts), (t.contents, s'))) ∧
      ∀ answered content rest texts s₁ e s', t.contents = answered ++ content :: rest →
        (answered.mapM f).outcome s = (.ok texts, s₁) → (f content).outcome s₁ = (.error e, s') →
        (d.replaceM (recorded f) (t.encode d)).outcome ([], s) =
          (.error e, (answered ++ [content], s')) := by
  have hescapable : Escapable d.opening ∧ Escapable d.closing := by
    rcases List.mem_pair.mp hd with rfl | rfl
    · exact ⟨⟨by decide, by decide, by decide⟩, ⟨by decide, by decide, by decide⟩⟩
    · exact ⟨⟨by decide, by decide, by decide⟩, ⟨by decide, by decide, by decide⟩⟩
  obtain ⟨hopening, hclosing⟩ := hescapable
  have hscan : (d.replaceM (recorded f) (t.encode d)).outcome ([], s) =
      (t.weave <$> t.contents.mapM (recorded f)).outcome ([], s) := by
    rw [Delimiters.replaceM_eq_fillM,
      Delimiters.spanned_encode hopening hclosing hliterals hcontents, Spanned.fillM]
  refine ⟨Delimiters.clashes_of_escapable hopening hclosing _, ?_, ?_⟩
  · intro texts s' hok
    rw [hscan, Action.outcome_map, recorded_ok hok]
    rfl
  · intro answered content rest texts s₁ e s' ht hok herror
    rw [hscan, Action.outcome_map, ht, recorded_error hok herror]
    rfl

def awkward : Spanned where
  start := "\\#\x7bé\x7d#"
  spans := [("", ""), ("a\x7d\\\x7db", "#\x7b\\#\x7b"), ("#\x7bx", "\x7d\\")]

def numbered (allowed : Nat) (content : String) : Action Nat String := do
  let n ← get
  if n = allowed then throw (.other content)
  set (n + 1)
  return "<" ++ toString n ++ ">"

theorem awkward_text_is_decoded :
    Placeholder.delimiters ∈ [Placeholder.delimiters, Template.Node.substitutions] ∧
      awkward.encode Placeholder.delimiters =
        "\\\\#\x7bé\x7d##\x7b\x7d#\x7ba\\\x7d\\\\\x7db\x7d\\#\x7b\\\\#\x7b#\x7b#\x7bx\x7d\x7d\\" ∧
      (Placeholder.delimiters.replaceM (recorded (numbered 9))
        (awkward.encode Placeholder.delimiters)).outcome ([], 0) =
          (.ok "\\#\x7bé\x7d#<0><1>#\x7b\\#\x7b<2>\x7d\\", (["", "a\x7d\\\x7db", "#\x7bx"], 3)) ∧
      (Placeholder.delimiters.replaceM (recorded (numbered 1))
        (awkward.encode Placeholder.delimiters)).outcome ([], 0) =
          (.error (.other "a\x7d\\\x7db"), (["", "a\x7d\\\x7db"], 1)) := by
  have hd : Placeholder.delimiters ∈ [Placeholder.delimiters, Template.Node.substitutions] :=
    List.mem_cons_self
  have hliterals : ∀ literal ∈ awkward.literals.dropLast, literal.toList.getLast? ≠ some '\\' := by
    decide +kernel
  have hcontents : ∀ content ∈ awkward.contents, content.toList.getLast? ≠ some '\\' := by
    decide +kernel
  refine ⟨hd, by decide +kernel, ?_, ?_⟩
  · exact (escapes_are_decoded hd hliterals hcontents (numbered 9) 0).2.1
      ["<0>", "<1>", "<2>"] 3 rfl
  · exact (escapes_are_decoded hd hliterals hcontents (numbered 1) 0).2.2
      [""] _ ["#\x7bx"] ["<0>"] 1 _ 1 rfl rfl rfl

end MappedSql.Text
