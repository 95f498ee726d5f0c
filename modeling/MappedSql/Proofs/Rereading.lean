import MappedSql.Proofs.Escapes
import MappedSql.Proofs.Reassembly

/-!
# Reading a text again

What a text was cut into can be put together again, with the contents between delimiters, but no
escape is written again for those that were decoded. Cutting the new text gives the same literal
text and contents just where nothing that was decoded takes part: where no content holds the
delimiter that closes it, no literal text before a content one that opens, and the literal text
at the end is read as it stands.

Each escape that is decoded costs its backslash, so the length of the new text tells whether there
was one.
-/

namespace MappedSql.Text

namespace Spanned

-- ---------------------------------------------------------------------------
-- Other contents
-- ---------------------------------------------------------------------------

def recontent (g : String → String) (t : Spanned) : Spanned :=
  { t with spans := t.spans.map fun (content, after) => (g content, after) }

variable {f g : String → String} {t : Spanned}

theorem contents_recontent : (t.recontent g).contents = t.contents.map g := by
  simp [recontent, contents]

theorem literals_recontent : (t.recontent g).literals = t.literals := by
  simp [recontent, literals, Function.comp_def]

theorem fill_recontent : (t.recontent g).fill f = t.fill fun content => f (g content) := by
  simp [recontent, fill, Function.comp_def]

-- ---------------------------------------------------------------------------
-- What can be read again
-- ---------------------------------------------------------------------------

structure Unescaping (t : Spanned) : Prop where
  contents : ∀ content ∈ t.contents, content.toList.getLast? ≠ some '\\'
  literals : ∀ literal ∈ t.literals.dropLast, literal.toList.getLast? ≠ some '\\'

/-- No content holds the delimiter that closes it, no literal text before a content holds one that
opens, and the literal text at the end is read as it stands. -/
structure Rereadable (d : Delimiters) (t : Spanned) : Prop where
  contents : ∀ content ∈ t.contents, ¬d.closing <:+: content.toList
  literals : ∀ literal ∈ t.literals.dropLast, ¬d.opening <:+: literal.toList
  last : ∀ literal ∈ t.literals.getLast?, d.spanned literal = ⟨literal, []⟩

instance (d : Delimiters) (t : Spanned) : Decidable (t.Rereadable d) :=
  decidable_of_iff ((∀ content ∈ t.contents, ¬d.closing <:+: content.toList) ∧
      (∀ literal ∈ t.literals.dropLast, ¬d.opening <:+: literal.toList) ∧
      ∀ literal ∈ t.literals.getLast?, d.spanned literal = ⟨literal, []⟩)
    ⟨fun h => ⟨h.1, h.2.1, h.2.2⟩, fun h => ⟨h.contents, h.literals, h.last⟩⟩

variable {d : Delimiters} {start content : String} {spans : List (String × String)}

theorem unescaping_cons :
    Unescaping ⟨start, (content, t.start) :: t.spans⟩ ↔
      start.toList.getLast? ≠ some '\\' ∧ content.toList.getLast? ≠ some '\\' ∧ t.Unescaping := by
  constructor
  · rintro ⟨hcontents, hliterals⟩
    obtain ⟨hcontent, hcontents⟩ := List.forall_mem_cons.mp hcontents
    obtain ⟨hstart, hliterals⟩ := List.forall_mem_cons.mp hliterals
    exact ⟨hstart, hcontent, hcontents, hliterals⟩
  · rintro ⟨hstart, hcontent, hcontents, hliterals⟩
    exact ⟨List.forall_mem_cons.mpr ⟨hcontent, hcontents⟩,
      List.forall_mem_cons.mpr ⟨hstart, hliterals⟩⟩

theorem rereadable_cons :
    Rereadable d ⟨start, (content, t.start) :: t.spans⟩ ↔
      ¬d.opening <:+: start.toList ∧ ¬d.closing <:+: content.toList ∧ t.Rereadable d := by
  constructor
  · rintro ⟨hcontents, hliterals, hlast⟩
    obtain ⟨hcontent, hcontents⟩ := List.forall_mem_cons.mp hcontents
    obtain ⟨hstart, hliterals⟩ := List.forall_mem_cons.mp hliterals
    exact ⟨hstart, hcontent, hcontents, hliterals, hlast⟩
  · rintro ⟨hstart, hcontent, hcontents, hliterals, hlast⟩
    exact ⟨List.forall_mem_cons.mpr ⟨hcontent, hcontents⟩,
      List.forall_mem_cons.mpr ⟨hstart, hliterals⟩, hlast⟩

theorem unescaping_literal (literal : String) : Unescaping ⟨literal, []⟩ :=
  ⟨List.forall_mem_nil _, List.forall_mem_nil _⟩

theorem rereadable_literal (h : d.spanned start = ⟨start, []⟩) : Rereadable d ⟨start, []⟩ :=
  ⟨List.forall_mem_nil _, List.forall_mem_nil _, fun literal hm => by
    obtain rfl : start = literal := Option.some.inj hm
    exact h⟩

theorem rereadable_recontent
    (hg : ∀ content ∈ t.contents,
      (d.closing <:+: (g content).toList ↔ d.closing <:+: content.toList)) :
    (t.recontent g).Rereadable d ↔ t.Rereadable d := by
  have hcontents : (∀ content ∈ (t.recontent g).contents, ¬d.closing <:+: content.toList) ↔
      ∀ content ∈ t.contents, ¬d.closing <:+: content.toList := by
    rw [contents_recontent, List.forall_mem_map]
    exact forall₂_congr fun content hm => not_congr (hg content hm)
  constructor
  · rintro ⟨hc, hl, hlast⟩
    rw [literals_recontent] at hl hlast
    exact ⟨hcontents.mp hc, hl, hlast⟩
  · rintro ⟨hc, hl, hlast⟩
    rw [← literals_recontent (g := g)] at hl hlast
    exact ⟨hcontents.mpr hc, hl, hlast⟩

end Spanned

-- ---------------------------------------------------------------------------
-- Lengths
-- ---------------------------------------------------------------------------

section
variable {closing s content rest : List Char}

/-- A content is as long as what it was read from, unless it holds a delimiter that closes it. -/
theorem length_content (hclosing : closing ≠ [])
    (h : spanContent closing s = some (content, rest)) :
    content.length + closing.length + rest.length ≤ s.length ∧
      (content.length + closing.length + rest.length = s.length → ¬closing <:+: content) := by
  fun_induction spanContent closing s generalizing content with
  | case1 => cases h
  | case2 s before after hcut hlast ih =>
    obtain ⟨⟨content, _⟩, hspan, ⟨⟩⟩ := Option.map_eq_some_iff.mp h
    have hshorter := (ih hspan).1
    have hlength := length_cut hcut
    have hbefore : before ≠ [] := by
      rintro rfl
      cases hlast
    have hpos := List.length_pos_iff.mpr hbefore
    simp only [List.length_append, List.length_dropLast]
    exact ⟨by omega, by omega⟩
  | case3 s before after hcut hlast =>
    cases h
    have hlength := length_cut hcut
    have habsent := ((cut_eq_some_iff hclosing).mp hcut).2
    exact ⟨by omega, fun _ hoccurs => habsent (List.infix_append_of_infix_left hoccurs)⟩

theorem getLast?_content (hclosing : Escapable closing)
    (h : spanContent closing s = some (content, rest)) : content.getLast? ≠ some '\\' := by
  fun_induction spanContent closing s generalizing content with
  | case1 => cases h
  | case2 s before after hcut hlast ih =>
    obtain ⟨⟨content, _⟩, hspan, ⟨⟩⟩ := Option.map_eq_some_iff.mp h
    refine getLast?_append_ne ?_ (ih hspan)
    rw [List.getLast?_append_of_ne_nil _ hclosing.ne_nil]
    exact hclosing.getLast?_ne
  | case3 s before after hcut hlast =>
    cases h
    exact hlast

end

namespace Delimiters

variable {d : Delimiters} {ho : d.opening ≠ []} {last : Option Char} {s : List Char}

/-- What stands before a text does not matter, unless it is a backslash. -/
theorem piecesAfter_eq_none (hlast : last ≠ some '\\') :
    d.piecesAfter ho last s = d.piecesAfter ho none s := by
  cases hcut : cut d.opening s with
  | none => rw [piecesAfter_unopened hcut, piecesAfter_unopened hcut]
  | some parts =>
    obtain ⟨before, after⟩ := parts
    cases hend : before.getLast? with
    | none =>
      rw [piecesAfter_opened hcut (by simpa [hend] using hlast),
        piecesAfter_opened hcut (by simp [hend])]
    | some c =>
      have hbefore : before ≠ [] := by
        rintro rfl
        cases hend
      by_cases hc : c = '\\'
      · subst hc
        rw [piecesAfter_escaped hcut hbefore hend, piecesAfter_escaped hcut hbefore hend]
      · rw [piecesAfter_opened hcut (by simpa [hend] using hc),
          piecesAfter_opened hcut (by simpa [hend] using hc)]

theorem fill_ofPieces_span (f : String → String) (before content : List Char) (ps : List Piece) :
    (Spanned.ofPieces (.literal before :: .span content :: ps)).fill f =
      String.ofList before ++ (f (String.ofList content) ++ (Spanned.ofPieces ps).fill f) := by
  rw [Spanned.ofPieces, Spanned.fill_prepend, Spanned.ofPieces, Spanned.fill_cons]

theorem ofPieces_span (before content : List Char) (ps : List Piece) :
    Spanned.ofPieces (.literal before :: .span content :: ps) =
      ⟨String.ofList before, (String.ofList content, (Spanned.ofPieces ps).start) ::
        (Spanned.ofPieces ps).spans⟩ := by
  simp [Spanned.ofPieces, Spanned.prepend]

/-- A text that has been put together again is as long as it was, unless an escape was decoded. -/
theorem length_fill_enclose (hc : d.closing ≠ []) (hopening : d.opening.getLast? ≠ some '\\')
    (hclosing : d.closing.getLast? ≠ some '\\') (hlast : last ≠ some '\\') :
    ((Spanned.ofPieces (d.piecesAfter ho last s)).fill d.enclose).toList.length ≤ s.length ∧
      (((Spanned.ofPieces (d.piecesAfter ho last s)).fill d.enclose).toList.length = s.length →
        (Spanned.ofPieces (d.piecesAfter ho last s)).Rereadable d) := by
  have hliteral : ∀ s : List Char, d.piecesAfter ho none s = [.literal s] →
      (Spanned.ofPieces [.literal s]).Rereadable d := by
    intro s hs
    have hread : d.spanned (String.ofList s) = ⟨String.ofList s, []⟩ := by
      rw [spanned, pieces_eq ho hc, String.toList_ofList, hs]
      simp [Spanned.ofPieces, Spanned.prepend]
    simpa [Spanned.ofPieces, Spanned.prepend] using Spanned.rereadable_literal hread
  fun_induction piecesAfter d ho last s with
  | case1 last s hcut =>
    refine ⟨by simp [Spanned.ofPieces, Spanned.prepend, Spanned.fill], fun _ => ?_⟩
    exact hliteral s (piecesAfter_unopened hcut)
  | case2 last s before after hcut hescaped hbefore =>
    obtain rfl := List.isEmpty_iff.mp hbefore
    exact absurd hescaped hlast
  | case3 last s before after hcut hescaped hbefore ih =>
    have hshorter := (ih hopening).1
    have hlength := length_cut hcut
    have hpos := List.length_pos_iff.mpr (mt List.isEmpty_iff.mpr hbefore)
    simp only [Spanned.ofPieces, Spanned.fill_prepend, String.toList_append, String.toList_ofList,
      List.length_append, List.length_dropLast]
    exact ⟨by omega, by omega⟩
  | case4 last s before after hcut hescaped hspan =>
    refine ⟨by simp [Spanned.ofPieces, Spanned.prepend, Spanned.fill], fun _ => hliteral s ?_⟩
    rw [← piecesAfter_eq_none hlast, piecesAfter_opened hcut hescaped, piecesOpened, hspan,
      eq_append_of_cut hcut]
  | case5 last s before after hcut hescaped content rest hspan ih =>
    obtain ⟨hshorter, hrest⟩ := ih hclosing
    obtain ⟨hcontent, hplain⟩ := length_content hc hspan
    have hlength := length_cut hcut
    have habsent := ((cut_eq_some_iff ho).mp hcut).2
    simp only [fill_ofPieces_span, enclose, String.toList_append, String.toList_ofList,
      List.length_append]
    refine ⟨by omega, fun heq => ?_⟩
    rw [ofPieces_span, Spanned.rereadable_cons, String.toList_ofList, String.toList_ofList]
    exact ⟨fun hoccurs => habsent (List.infix_append_of_infix_left hoccurs), hplain (by omega),
      hrest (by omega)⟩

theorem unescaping_ofPieces (hopening : Escapable d.opening) (hclosing : Escapable d.closing)
    (hlast : last ≠ some '\\') : (Spanned.ofPieces (d.piecesAfter ho last s)).Unescaping := by
  fun_induction piecesAfter d ho last s with
  | case1 => exact Spanned.unescaping_literal _
  | case2 last s before after hcut hescaped hbefore =>
    obtain rfl := List.isEmpty_iff.mp hbefore
    exact absurd hescaped hlast
  | case3 last s before after hcut hescaped hbefore ih =>
    obtain ⟨hcontents, hliterals⟩ := ih hopening.getLast?_ne
    refine ⟨hcontents, ?_⟩
    rw [Spanned.ofPieces]
    generalize Spanned.ofPieces (d.piecesAfter ho d.opening.getLast? after) = t at hliterals
    obtain ⟨start, spans⟩ := t
    cases spans with
    | nil => exact List.forall_mem_nil _
    | cons span spans =>
      obtain ⟨hstart, hliterals⟩ := List.forall_mem_cons.mp hliterals
      refine List.forall_mem_cons.mpr ⟨?_, hliterals⟩
      change (String.ofList (before.dropLast ++ d.opening) ++ start).toList.getLast? ≠ some '\\'
      rw [String.toList_append, String.toList_ofList]
      refine getLast?_append_ne ?_ hstart
      rw [List.getLast?_append_of_ne_nil _ hopening.ne_nil]
      exact hopening.getLast?_ne
  | case4 => exact Spanned.unescaping_literal _
  | case5 last s before after hcut hescaped content rest hspan ih =>
    rw [ofPieces_span, Spanned.unescaping_cons, String.toList_ofList, String.toList_ofList]
    refine ⟨fun hend => hescaped ?_, getLast?_content hclosing hspan, ih hclosing.getLast?_ne⟩
    rw [hend, Option.some_or]

theorem unescaping_spanned (hopening : Escapable d.opening) (hclosing : Escapable d.closing)
    (text : String) : (d.spanned text).Unescaping := by
  rw [spanned, pieces_eq hopening.ne_nil hclosing.ne_nil]
  exact unescaping_ofPieces hopening hclosing (by simp)

theorem ofPieces_fill_enclose (hopening : Escapable d.opening) (hclosing : Escapable d.closing)
    {start : String} {spans : List (String × String)} (hlast : last ≠ some '\\')
    (hends : Spanned.Unescaping ⟨start, spans⟩) (h : Spanned.Rereadable d ⟨start, spans⟩) :
    Spanned.ofPieces (d.piecesAfter ho last (Spanned.fill d.enclose ⟨start, spans⟩).toList) =
      ⟨start, spans⟩ := by
  induction spans generalizing start last with
  | nil =>
    have hread := h.last start rfl
    rw [spanned, pieces_eq ho hclosing.ne_nil] at hread
    rw [piecesAfter_eq_none hlast]
    simpa [Spanned.fill] using hread
  | cons span spans ih =>
    obtain ⟨content, after⟩ := span
    obtain ⟨hstart, hcontent, hends⟩ := (Spanned.unescaping_cons (t := ⟨after, spans⟩)).mp hends
    obtain ⟨hunopened, hunclosed, hrest⟩ :=
      (Spanned.rereadable_cons (t := ⟨after, spans⟩)).mp h
    have htext : (Spanned.fill d.enclose ⟨start, (content, after) :: spans⟩).toList =
        start.toList ++ d.opening ++ (content.toList ++ d.closing ++
          (Spanned.fill d.enclose ⟨after, spans⟩).toList) := by
      simp [Spanned.fill, enclose]
    have hlive : start.toList.getLast?.or last ≠ some '\\' := by
      cases hend : start.toList.getLast? with
      | none => simpa using hlast
      | some c => simpa [hend] using hstart
    have hspan : spanContent d.closing (content.toList ++ d.closing ++
        (Spanned.fill d.enclose ⟨after, spans⟩).toList) =
        some (content.toList, (Spanned.fill d.enclose ⟨after, spans⟩).toList) := by
      rw [spanContent_of_cut (hclosing.unbordered.cut_append hclosing.ne_nil hunclosed _),
        if_neg hcontent]
    rw [htext, piecesAfter_opened (hopening.unbordered.cut_append ho hunopened _) hlive,
      piecesOpened, hspan]
    simp only [ofPieces_span, ih hclosing.getLast?_ne hends hrest, String.ofList_toList]

/-- A text that has been put together again is cut as before just where it can be read again. -/
theorem spanned_fill_enclose_iff (hopening : Escapable d.opening) (hclosing : Escapable d.closing)
    {t : Spanned} (hends : t.Unescaping) :
    d.spanned (t.fill d.enclose) = t ↔ t.Rereadable d := by
  have hpieces := pieces_eq hopening.ne_nil hclosing.ne_nil (t.fill d.enclose)
  rw [spanned, hpieces]
  constructor
  · intro hsame
    rw [← hsame]
    refine (length_fill_enclose hclosing.ne_nil hopening.getLast?_ne hclosing.getLast?_ne
      (by simp)).2 ?_
    rw [hsame]
  · exact fun h => ofPieces_fill_enclose hopening hclosing (by simp) hends h

end Delimiters

end MappedSql.Text
