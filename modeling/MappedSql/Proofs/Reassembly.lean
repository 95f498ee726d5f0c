import MappedSql.Proofs.Spans

/-!
# Putting a text together again

Where no delimiter stands directly after a backslash, nothing is escaped: a text is its literal
parts and its contents between their delimiters. This is so for any two delimiters, also for
ones that overlap themselves or each other, and for spans that are never closed.
-/

namespace MappedSql.Text

/-- No occurrence of the mark stands directly after a backslash. -/
def Unescaped (mark s : List Char) : Prop :=
  ¬('\\' :: mark) <:+: s

instance (mark s : List Char) : Decidable (Unescaped mark s) :=
  inferInstanceAs (Decidable (¬_))

namespace Unescaped

variable {mark s t before after : List Char}

theorem of_suffix (h : Unescaped mark t) (hs : s <:+ t) : Unescaped mark s :=
  fun hoccurs => h (hoccurs.trans hs.isInfix)

theorem getLast?_ne (h : Unescaped mark (before ++ mark ++ after)) :
    before.getLast? ≠ some '\\' := by
  intro hlast
  obtain ⟨before, rfl⟩ := List.getLast?_eq_some_iff.mp hlast
  exact h ⟨before, after, by simp⟩

theorem spanContent_eq (h : Unescaped mark s) : spanContent mark s = cut mark s := by
  cases hcut : cut mark s with
  | none => exact spanContent_of_cut_none hcut
  | some parts =>
    obtain ⟨before, after⟩ := parts
    rw [eq_append_of_cut hcut] at h
    rw [spanContent_of_cut hcut, if_neg h.getLast?_ne]

end Unescaped

namespace Delimiters

variable {d : Delimiters} {last : Option Char} {s : List Char}

def enclose (d : Delimiters) (content : String) : String :=
  String.ofList d.opening ++ content ++ String.ofList d.closing

/-- The delimiters are live wherever they occur in a text that follows the character `last`. -/
structure Live (d : Delimiters) (last : Option Char) (s : List Char) : Prop where
  opening : Unescaped d.opening (last.toList ++ s)
  closing : Unescaped d.closing s

theorem Live.opened {before after : List Char} (h : d.Live last s)
    (hcut : cut d.opening s = some (before, after)) :
    before.getLast?.or last ≠ some '\\' ∧ Unescaped d.closing after ∧
      ∀ {content rest : List Char}, cut d.closing after = some (content, rest) →
        d.Live d.closing.getLast? rest := by
  have hs := eq_append_of_cut hcut
  refine ⟨?_, h.closing.of_suffix ⟨_, hs.symm⟩, fun {content rest} hspan => ?_⟩
  · have hopening := h.opening
    rw [hs, ← List.append_assoc, ← List.append_assoc] at hopening
    have hlast := hopening.getLast?_ne
    rw [List.getLast?_append] at hlast
    cases last with
    | none => simpa using hlast
    | some c => simpa using hlast
  · have hafter := eq_append_of_cut hspan
    have hrest : d.closing.getLast?.toList ++ rest <:+ s := by
      cases hend : d.closing.getLast? with
      | none => exact ⟨before ++ d.opening ++ content ++ d.closing, by simp [hs, hafter]⟩
      | some c =>
        obtain ⟨closing, hclosing⟩ := List.getLast?_eq_some_iff.mp hend
        exact ⟨before ++ d.opening ++ content ++ closing, by simp [hs, hafter, hclosing]⟩
    refine ⟨h.opening.of_suffix (hrest.trans (List.suffix_append _ _)), h.closing.of_suffix ?_⟩
    exact (List.suffix_append _ _).trans hrest

theorem Live.piecesAfter (ho : d.opening ≠ []) {last : Option Char} {s : List Char}
    (h : d.Live last s) :
    .clash ∉ d.piecesAfter ho last s ∧
      String.join ((d.piecesAfter ho last s).map (Piece.replace d.enclose)) = String.ofList s := by
  cases hcut : cut d.opening s with
  | none =>
    rw [piecesAfter_unopened hcut]
    simp [Piece.replace]
  | some parts =>
    obtain ⟨before, after⟩ := parts
    obtain ⟨hlast, hclosing, hrest⟩ := h.opened hcut
    have hs := eq_append_of_cut hcut
    have hshorter := length_cut hcut
    rw [piecesAfter_opened hcut hlast, piecesOpened, hclosing.spanContent_eq]
    split
    · simp [Piece.replace, hs]
    · rename_i content rest hspan
      have hafter := eq_append_of_cut hspan
      have hshorter' := length_cut hspan
      obtain ⟨hclash, htext⟩ := (hrest hspan).piecesAfter ho
      refine ⟨by simpa using hclash, ?_⟩
      rw [List.map_cons, List.map_cons, String.join_cons, String.join_cons, htext, hs, hafter]
      simp [Piece.replace, enclose, String.ofList_append, String.append_assoc]
termination_by s.length
decreasing_by
  have := List.length_pos_iff.mpr ho
  omega

/-- A span is found just where an opening delimiter has a closing one after it. -/
theorem Live.hasSpan (ho : d.opening ≠ []) (hc : d.closing ≠ []) (h : d.Live last s) :
    (∃ p ∈ d.piecesAfter ho last s, p.content?.isSome) ↔
      ∃ before content after, s = before ++ d.opening ++ content ++ d.closing ++ after := by
  -- No induction: where there is no span at the first opening delimiter, nothing after it closes
  -- a later one either.
  cases hcut : cut d.opening s with
  | none =>
    rw [piecesAfter_unopened hcut]
    have hs := (cut_eq_none_iff ho).mp hcut
    refine iff_of_false (by simp [Piece.content?]) ?_
    rintro ⟨before, content, after, rfl⟩
    exact hs ⟨before, content ++ d.closing ++ after, by simp⟩
  | some parts =>
    obtain ⟨before, after⟩ := parts
    obtain ⟨hlast, hclosing, -⟩ := h.opened hcut
    rw [piecesAfter_opened hcut hlast, piecesOpened, hclosing.spanContent_eq]
    split
    · rename_i hnone
      refine iff_of_false (by simp [Piece.content?]) ?_
      rintro ⟨before', content, after', hs⟩
      rw [List.append_assoc, List.append_assoc] at hs
      have hsuffix := suffix_of_cut_first ho hcut hs
      refine (cut_eq_none_iff hc).mp hnone (List.IsInfix.trans ?_ hsuffix.isInfix)
      exact ⟨content, after', List.append_assoc _ _ _⟩
    · rename_i content rest hspan
      refine iff_of_true ⟨.span content, by simp, rfl⟩ ⟨before, content, rest, ?_⟩
      rw [eq_append_of_cut hcut, eq_append_of_cut hspan]
      simp

end Delimiters

theorem replaceM_pure {m : Type → Type} [Monad m] (f : String → String) :
    Piece.replaceM (fun content => (pure (f content) : m String)) =
      fun p => pure (p.replace f) := by
  funext p
  cases p <;> rfl

/-- Where no delimiter is escaped, putting every content back between its delimiters gives the
text again. There is a span to replace just where an opening delimiter has a closing one after
it. -/
theorem enclosed_contents_give_text {d : Delimiters} {text : String} (ho : d.opening ≠ [])
    (hc : d.closing ≠ []) (hopening : Unescaped d.opening text.toList)
    (hclosing : Unescaped d.closing text.toList) {m : Type → Type} [Monad m] [LawfulMonad m] :
    d.clashes text = false ∧
      d.replaceM (fun content => (pure (d.enclose content) : m String)) text = pure text ∧
      (d.hasSpans text ↔ ∃ before content after,
        text.toList = before ++ d.opening ++ content ++ d.closing ++ after) := by
  have hlive : d.Live none text.toList := ⟨hopening, hclosing⟩
  have hpieces := Delimiters.pieces_eq ho hc text
  obtain ⟨hclash, htext⟩ := hlive.piecesAfter ho
  refine ⟨?_, ?_, ?_⟩
  · rw [Delimiters.clashes, hpieces, List.any_eq_false]
    intro p hp hpclash
    exact hclash (eq_of_beq hpclash ▸ hp)
  · rw [Delimiters.replaceM, hpieces, replaceM_pure, List.mapM_pure, pure_bind, htext,
      String.ofList_toList]
  · rw [Delimiters.hasSpans, hpieces, List.any_eq_true]
    exact hlive.hasSpan ho hc

def overlapping : Delimiters where
  opening := ['a', 'b', 'a']
  closing := ['a', 'b']

theorem overlapping_contents_give_text :
    overlapping.opening ≠ [] ∧ overlapping.closing ≠ [] ∧
      Unescaped overlapping.opening "\\xabac-ababab abaaba c".toList ∧
      Unescaped overlapping.closing "\\xabac-ababab abaaba c".toList ∧
      overlapping.contents "\\xabac-ababab abaaba c" = ["c-", "b "] ∧
      overlapping.clashes "\\xabac-ababab abaaba c" = false ∧
      overlapping.replaceM (fun content => .ok (overlapping.enclose content))
        "\\xabac-ababab abaaba c" = (.ok "\\xabac-ababab abaaba c" : Except Unit String) := by
  have hopening : Unescaped overlapping.opening "\\xabac-ababab abaaba c".toList := by
    decide +kernel
  have hclosing : Unescaped overlapping.closing "\\xabac-ababab abaaba c".toList := by
    decide +kernel
  obtain ⟨hclash, htext, -⟩ := enclosed_contents_give_text (m := Except Unit)
    (List.cons_ne_nil _ _) (List.cons_ne_nil _ _) hopening hclosing
  exact ⟨List.cons_ne_nil _ _, List.cons_ne_nil _ _, hopening, hclosing, by decide +kernel,
    hclash, htext⟩

end MappedSql.Text
