import MappedSql.Proofs.Renderings
import MappedSql.Proofs.Spans

/-!
# Texts with placeholders

How texts that are put together, trimmed or rewritten are cut into literal parts and
placeholders.
-/

namespace MappedSql.Placeholder

open Text (Piece cut spanContent)

-- ---------------------------------------------------------------------------
-- Delimiters
-- ---------------------------------------------------------------------------

def Unopened (s : List Char) : Prop :=
  cut delimiters.opening s = none

variable {s t before after content rest : List Char}

theorem unopened_nil : Unopened [] := rfl

theorem unopened_iff : Unopened s ↔ ¬delimiters.opening <:+: s :=
  Text.cut_eq_none_iff (List.cons_ne_nil _ _)

theorem unopened_cons {c : Char} :
    Unopened (c :: s) ↔ ¬(c = '#' ∧ s.head? = some '{') ∧ Unopened s := by
  have hstarts : delimiters.opening <+: c :: s ↔ c = '#' ∧ s.head? = some '{' := by
    cases s <;> simp [delimiters, eq_comm]
  rw [unopened_iff, unopened_iff, List.infix_cons_iff, not_or, hstarts]

theorem unopened_append :
    Unopened (s ++ t) ↔
      Unopened s ∧ Unopened t ∧ ¬(s.getLast? = some '#' ∧ t.head? = some '{') := by
  induction s with
  | nil => simp [unopened_nil]
  | cons c s ih =>
    rw [List.cons_append, unopened_cons, unopened_cons, ih]
    cases s with
    | nil => simp [unopened_nil]; tauto
    | cons d s => simp [List.getLast?_cons_cons]; tauto

theorem cut_opening_iff :
    cut delimiters.opening s = some (before, after) ↔
      s = before ++ '#' :: '{' :: after ∧ Unopened before := by
  have hopening : delimiters.opening ≠ [] := List.cons_ne_nil _ _
  have hborder : Text.Unbordered delimiters.opening := by decide
  rw [Text.cut_eq_some_iff hopening, unopened_iff]
  refine and_congr (by simp [delimiters]) ⟨?_, hborder.absent_append hopening⟩
  exact mt List.infix_append_of_infix_left

theorem cut_opening_of_unopened (h : Unopened before) (after : List Char) :
    cut delimiters.opening (before ++ '#' :: '{' :: after) = some (before, after) :=
  cut_opening_iff.mpr ⟨rfl, h⟩

theorem unopened_of_cut (h : cut delimiters.opening s = some (before, after)) :
    Unopened before :=
  (cut_opening_iff.mp h).2

theorem cut_opening_append (h : cut delimiters.opening s = some (before, after)) (t : List Char) :
    cut delimiters.opening (s ++ t) = some (before, after ++ t) := by
  obtain ⟨rfl, hbefore⟩ := cut_opening_iff.mp h
  exact cut_opening_iff.mpr ⟨by simp, hbefore⟩

theorem suffix_of_cut {mark : List Char} (h : cut mark s = some (before, after)) : after <:+ s :=
  ⟨before ++ mark, (Text.eq_append_of_cut h).symm⟩

theorem cut_closing_iff :
    cut delimiters.closing s = some (before, after) ↔
      s = before ++ '}' :: after ∧ '}' ∉ before := by
  have hclosing : delimiters.closing ≠ [] := List.cons_ne_nil _ _
  rw [Text.cut_eq_some_iff hclosing]
  simp [delimiters, List.singleton_infix_iff]

theorem cut_closing_append (h : cut delimiters.closing s = some (before, after)) (t : List Char) :
    cut delimiters.closing (s ++ t) = some (before, after ++ t) := by
  obtain ⟨rfl, hbefore⟩ := cut_closing_iff.mp h
  exact cut_closing_iff.mpr ⟨by simp, hbefore⟩

theorem spanContent_of_cut (h : cut delimiters.closing s = some (before, after)) :
    spanContent delimiters.closing s =
      if before.getLast? = some '\\' then
        (spanContent delimiters.closing after).map fun (content, rest) =>
          (before.dropLast ++ '}' :: content, rest)
      else some (before, after) := by
  simpa [delimiters] using Text.spanContent_of_cut h

theorem spanContent_append (h : spanContent delimiters.closing s = some (content, rest))
    (t : List Char) : spanContent delimiters.closing (s ++ t) = some (content, rest ++ t) := by
  fun_induction spanContent delimiters.closing s generalizing content with
  | case1 => cases h
  | case2 s before after hcut hescaped ih =>
    obtain ⟨⟨content, rest⟩, hspan, he⟩ := Option.map_eq_some_iff.mp h
    cases he
    rw [spanContent_of_cut (cut_closing_append hcut t), if_pos hescaped, ih hspan]
    simp [delimiters]
  | case3 s before after hcut hescaped =>
    cases h
    rw [spanContent_of_cut (cut_closing_append hcut t), if_neg hescaped]

theorem suffix_of_spanContent {closing : List Char}
    (h : spanContent closing s = some (content, rest)) : rest <:+ s := by
  obtain ⟨inner, rfl⟩ := Text.append_of_spanContent h
  exact List.suffix_append _ _

theorem in_second_of_not_mem {c : Char} (h : before ++ c :: after = s ++ t) (hs : c ∉ s) :
    ∃ before', before = s ++ before' ∧ t = before' ++ c :: after := by
  rcases List.append_eq_append_iff.mp h with ⟨s', rfl, hs'⟩ | ⟨before', rfl, rfl⟩
  · cases s' with
    | nil => exact ⟨[], by simp, hs'.symm⟩
    | cons d s' =>
      obtain ⟨rfl, -⟩ := List.cons_eq_cons.mp hs'
      exact absurd (by simp) hs
  · exact ⟨before', rfl, rfl⟩

theorem in_first_of_not_mem {c : Char} (h : before ++ c :: after = s ++ t) (ht : c ∉ t) :
    ∃ s', s = before ++ c :: s' ∧ after = s' ++ t := by
  rcases List.append_eq_append_iff.mp h with ⟨s', rfl, hs'⟩ | ⟨t', -, rfl⟩
  · cases s' with
    | nil =>
      obtain rfl : c :: after = t := hs'
      exact absurd List.mem_cons_self ht
    | cons d s' =>
      obtain ⟨rfl, rfl⟩ := List.cons_eq_cons.mp hs'
      exact ⟨s', rfl, rfl⟩
  · exact absurd (by simp) ht

theorem spanContent_of_append (h : spanContent delimiters.closing (s ++ t) = some (content, rest))
    (ht : '}' ∉ t) :
    ∃ rest', rest = rest' ++ t ∧ spanContent delimiters.closing s = some (content, rest') := by
  generalize hst : s ++ t = u at h
  fun_induction spanContent delimiters.closing u generalizing s content with
  | case1 => cases h
  | case2 u before after hcut hescaped ih =>
    obtain ⟨hu, hbefore⟩ := cut_closing_iff.mp hcut
    obtain ⟨s', rfl, rfl⟩ := in_first_of_not_mem (hu ▸ hst.symm) ht
    obtain ⟨⟨content, rest⟩, hspan, he⟩ := Option.map_eq_some_iff.mp h
    cases he
    obtain ⟨rest', rfl, hspan'⟩ := ih rfl hspan
    refine ⟨rest', rfl, ?_⟩
    rw [spanContent_of_cut (cut_closing_iff.mpr ⟨rfl, hbefore⟩), if_pos hescaped, hspan']
    simp [delimiters]
  | case3 u before after hcut hescaped =>
    cases h
    obtain ⟨hu, hbefore⟩ := cut_closing_iff.mp hcut
    obtain ⟨s', rfl, rfl⟩ := in_first_of_not_mem (hu ▸ hst.symm) ht
    refine ⟨s', rfl, ?_⟩
    rw [spanContent_of_cut (cut_closing_iff.mpr ⟨rfl, hbefore⟩), if_neg hescaped]

/-- A content without closing delimiters in it is closed by the first one. -/
theorem spanContent_plain (hcontent : '}' ∉ content) (hlast : content.getLast? ≠ some '\\')
    (rest : List Char) :
    spanContent delimiters.closing (content ++ '}' :: rest) = some (content, rest) := by
  rw [spanContent_of_cut (cut_closing_iff.mpr ⟨rfl, hcontent⟩), if_neg hlast]

theorem eq_of_spanContent_plain (h : spanContent delimiters.closing s = some (content, rest))
    (hcontent : '}' ∉ content) :
    s = content ++ '}' :: rest ∧ content.getLast? ≠ some '\\' := by
  cases hcut : cut delimiters.closing s with
  | none =>
    rw [spanContent] at h
    split at h
    · cases h
    · simp_all
  | some parts =>
    obtain ⟨before, after⟩ := parts
    rw [spanContent_of_cut hcut] at h
    split at h
    · obtain ⟨⟨_, _⟩, -, he⟩ := Option.map_eq_some_iff.mp h
      cases he
      exact absurd (by simp) hcontent
    · rename_i hlast
      cases h
      exact ⟨(cut_closing_iff.mp hcut).1, hlast⟩

-- ---------------------------------------------------------------------------
-- Cutting
-- ---------------------------------------------------------------------------

/-- How a text is cut in which every opening delimiter is closed, or else escaped. Where
`escapes` is false, no delimiter is escaped. -/
inductive Cuts (escapes : Bool) : List Char → List Piece → Prop
  | rest {s : List Char} (h : Unopened s) : Cuts escapes s [.literal s]
  | escaped {s before after : List Char} {pieces : List Piece} (hescapes : escapes)
      (hcut : cut delimiters.opening s = some (before, after)) (hlast : before.getLast? = some '\\')
      (hafter : Cuts escapes after pieces) :
      Cuts escapes s (.literal (before.dropLast ++ delimiters.opening) :: pieces)
  | span {s before after content rest : List Char} {pieces : List Piece}
      (hcut : cut delimiters.opening s = some (before, after)) (hlast : before.getLast? ≠ some '\\')
      (hspan : spanContent delimiters.closing after = some (content, rest))
      (hplain : escapes ∨ '}' ∉ content) (hrest : Cuts escapes rest pieces) :
      Cuts escapes s (.literal before :: .span content :: pieces)

namespace Cuts

variable {escapes : Bool} {ps qs : List Piece}

theorem escapes_iff {last : Option Char} (hlast : last ≠ some '\\') (before : List Char) :
    before.getLast?.or last = some '\\' ↔ before.getLast? = some '\\' := by
  cases before.getLast? with
  | none => simp [hlast]
  | some c => simp

theorem piecesAfter (h : Cuts escapes s ps) {last : Option Char} (hlast : last ≠ some '\\')
    (ho : delimiters.opening ≠ []) : delimiters.piecesAfter ho last s = ps := by
  induction h generalizing last with
  | rest h =>
    rw [Text.Delimiters.piecesAfter]
    split
    · rfl
    · rename_i hcut
      cases h.symm.trans hcut
  | @escaped _ before _ _ _ hcut hescaped _ ih =>
    have hbefore : before.isEmpty = false := by
      cases before with
      | nil => cases hescaped
      | cons c before => rfl
    rw [Text.Delimiters.piecesAfter]
    split
    · simp_all
    · rename_i hcut'
      cases hcut.symm.trans hcut'
      rw [if_pos ((escapes_iff hlast _).mpr hescaped), hbefore, if_neg (by simp),
        ih (by decide)]
  | span hcut hescaped hspan _ _ ih =>
    rw [Text.Delimiters.piecesAfter]
    split
    · simp_all
    · rename_i hcut'
      cases hcut.symm.trans hcut'
      rw [if_neg (mt (escapes_iff hlast _).mp hescaped)]
      split
      · simp_all
      · rename_i hspan'
        cases hspan.symm.trans hspan'
        rw [ih (by decide)]

theorem pieces {text : String} (h : Cuts escapes text.toList ps) :
    delimiters.pieces text = ps := by
  have ho : delimiters.opening ≠ [] := List.cons_ne_nil _ _
  have hc : delimiters.closing ≠ [] := List.cons_ne_nil _ _
  have hstart : (none : Option Char) ≠ some '\\' := by simp
  rw [Text.Delimiters.pieces, dif_neg ho, if_neg hc]
  exact h.piecesAfter hstart ho

end Cuts

/-- A piece that holds no delimiter, so that none was left open and none escaped. -/
def isPlain : Piece → Bool
  | .literal s => (cut delimiters.opening s).isNone
  | .span content => '}' ∉ content
  | .clash => false

theorem piecesAfter_ne_nil (ho : delimiters.opening ≠ []) (last : Option Char) (s : List Char) :
    delimiters.piecesAfter ho last s ≠ [] := by
  rw [Text.Delimiters.piecesAfter]
  repeat' split
  all_goals exact List.cons_ne_nil _ _

theorem cuts_of_isPlain {escapes : Bool} (ho : delimiters.opening ≠ []) {last : Option Char}
    (hlast : last ≠ some '\\')
    (hend : ∀ p ∈ (delimiters.piecesAfter ho last s).getLast?, isPlain p)
    (hplain : escapes ∨ ∀ p ∈ delimiters.piecesAfter ho last s, isPlain p) :
    Cuts escapes s (delimiters.piecesAfter ho last s) := by
  fun_induction Text.Delimiters.piecesAfter delimiters ho last s with
  | case1 last s hcut => exact .rest hcut
  | case2 last s before after hcut hescaped hbefore =>
    obtain rfl := List.isEmpty_iff.mp hbefore
    exact absurd hescaped hlast
  | case3 last s before after hcut hescaped hbefore ih =>
    rw [List.getLast?_cons_of_ne_nil (piecesAfter_ne_nil ho _ _)] at hend
    have hescapes : escapes := hplain.resolve_right fun h => by
      have hfirst : isPlain (.literal (before.dropLast ++ delimiters.opening)) :=
        h _ List.mem_cons_self
      exact nomatch (unopened_append.mp (Option.isNone_iff_eq_none.mp hfirst)).2.1
    exact .escaped hescapes hcut ((Cuts.escapes_iff hlast _).mp hescaped)
      (ih (by decide) hend (.inl hescapes))
  | case4 last s before after hcut hescaped hspan =>
    have hs : isPlain (.literal s) := hend _ rfl
    simp [isPlain, hcut] at hs
  | case5 last s before after hcut hescaped content rest hspan ih =>
    rw [List.getLast?_cons_of_ne_nil (List.cons_ne_nil _ _),
      List.getLast?_cons_of_ne_nil (piecesAfter_ne_nil ho _ _)] at hend
    refine .span hcut (mt (Cuts.escapes_iff hlast _).mpr hescaped) hspan ?_ (ih (by decide) hend ?_)
    · exact hplain.imp_right fun h => by
        simpa [isPlain] using h (.span content) (by simp)
    · exact hplain.imp_right fun h p hp => h p (by simp [hp])

/-- Puts a piece before others. Two literal parts become one. -/
def glueOne : Piece → List Piece → List Piece
  | .literal a, .literal b :: qs => .literal (a ++ b) :: qs
  | p, qs => p :: qs

def glue : List Piece → List Piece → List Piece
  | [], qs => qs
  | [p], qs => glueOne p qs
  | p :: next :: ps, qs => p :: glue (next :: ps) qs

/-- A character that is in no delimiter, and escapes none. -/
def Neutral (c : Char) : Prop :=
  c ∉ ['#', '{', '}', '\\']

instance (c : Char) : Decidable (Neutral c) :=
  inferInstanceAs (Decidable (c ∉ _))

/-- Nothing is opened, closed or escaped at the seam of two texts. -/
def Seam (s t : List Char) : Prop :=
  (∀ c ∈ s.getLast?, Neutral c) ∨ ∀ c ∈ t.head?, Neutral c

namespace Seam

theorem not_opened (h : Seam s t) : ¬(s.getLast? = some '#' ∧ t.head? = some '{') := by
  rintro ⟨hs, ht⟩
  rcases h with h | h
  · exact h '#' hs (by simp)
  · exact h '{' ht (by simp)

theorem not_escaped (h : Seam s t) (ht : t.head? = some '#') : s.getLast? ≠ some '\\' := by
  intro hs
  rcases h with h | h
  · exact h '\\' hs (by simp)
  · exact h '#' ht (by simp)

theorem of_suffix (h : Seam s t) (hrest : rest <:+ s) : Seam rest t := by
  obtain ⟨before, rfl⟩ := hrest
  cases rest with
  | nil => exact .inl nofun
  | cons c rest => rwa [Seam, List.getLast?_append_cons] at h

end Seam

namespace Cuts

theorem mono (h : Cuts false s ps) : Cuts escapes s ps := by
  induction h with
  | rest h => exact .rest h
  | escaped h => cases h
  | span hcut hlast hspan hplain _ ih =>
    exact .span hcut hlast hspan (hplain.imp_left Bool.false_ne_true.elim) ih

theorem glue_cons (p : Piece) (h : Cuts escapes s ps) (qs : List Piece) :
    glue (p :: ps) qs = p :: glue ps qs := by
  cases h <;> rfl

theorem literal_append (hs : Unopened s) (ht : Cuts escapes t qs) (h : Seam s t) :
    Cuts escapes (s ++ t) (glueOne (.literal s) qs) := by
  have hopened : ∀ {before after : List Char}, cut delimiters.opening t = some (before, after) →
      cut delimiters.opening (s ++ t) = some (s ++ before, after) := by
    intro before after hcut
    obtain ⟨rfl, hbefore⟩ := cut_opening_iff.mp hcut
    refine cut_opening_iff.mpr ⟨by simp, unopened_append.mpr ⟨hs, hbefore, ?_⟩⟩
    rintro ⟨hlast, hhead⟩
    cases before with
    | nil => cases hhead
    | cons c before => exact h.not_opened ⟨hlast, hhead⟩
  cases ht with
  | rest ht => exact .rest (unopened_append.mpr ⟨hs, ht, h.not_opened⟩)
  | @escaped _ before _ _ hescapes hcut hescaped hafter =>
    have hbefore : before ≠ [] := by
      rintro rfl
      cases hescaped
    have hcuts := Cuts.escaped hescapes (hopened hcut)
      (by rwa [List.getLast?_append_of_ne_nil _ hbefore]) hafter
    rwa [List.dropLast_append_of_ne_nil hbefore, List.append_assoc] at hcuts
  | @span _ before _ _ _ _ hcut hescaped hspan hplain hrest =>
    refine .span (hopened hcut) ?_ hspan hplain hrest
    cases before with
    | nil =>
      rw [List.append_nil]
      exact h.not_escaped (by rw [(cut_opening_iff.mp hcut).1]; rfl)
    | cons c before => rwa [List.getLast?_append_cons]

theorem append (hs : Cuts escapes s ps) (ht : Cuts escapes t qs) (h : Seam s t) :
    Cuts escapes (s ++ t) (glue ps qs) := by
  induction hs with
  | rest hs => exact literal_append hs ht h
  | @escaped s before after ps hescapes hcut hescaped hafter ih =>
    rw [glue_cons _ hafter]
    exact .escaped hescapes (cut_opening_append hcut t) hescaped
      (ih (h.of_suffix (suffix_of_cut hcut)))
  | @span s before after content rest ps hcut hescaped hspan hplain hrest ih =>
    change Cuts escapes (s ++ t) (.literal before :: glue (.span content :: ps) qs)
    rw [glue_cons _ hrest]
    exact .span (cut_opening_append hcut t) hescaped (spanContent_append hspan t) hplain
      (ih (h.of_suffix ((suffix_of_spanContent hspan).trans (suffix_of_cut hcut))))

theorem of_literal_append (h : Cuts escapes (s ++ t) ps) (hs : ∀ c ∈ s, Neutral c) :
    ∃ qs, Cuts escapes t qs ∧ ps = glueOne (.literal s) qs := by
  have hcuts : ∀ {before after : List Char},
      cut delimiters.opening (s ++ t) = some (before, after) →
      ∃ before', before = s ++ before' ∧ cut delimiters.opening t = some (before', after) := by
    intro before after hcut
    obtain ⟨hst, hbefore⟩ := cut_opening_iff.mp hcut
    obtain ⟨before', rfl, ht⟩ := in_second_of_not_mem hst.symm fun hm => hs '#' hm (by simp)
    exact ⟨before', rfl, cut_opening_iff.mpr ⟨ht, (unopened_append.mp hbefore).2.1⟩⟩
  cases h with
  | rest h => exact ⟨[.literal t], .rest (unopened_append.mp h).2.1, rfl⟩
  | escaped hescapes hcut hescaped hafter =>
    obtain ⟨before, rfl, hcut'⟩ := hcuts hcut
    have hbefore : before ≠ [] := by
      rintro rfl
      rw [List.append_nil] at hescaped
      exact hs '\\' (List.mem_of_getLast? hescaped) (by simp)
    rw [List.getLast?_append_of_ne_nil _ hbefore] at hescaped
    refine ⟨_, .escaped hescapes hcut' hescaped hafter, ?_⟩
    rw [List.dropLast_append_of_ne_nil hbefore, List.append_assoc]
    rfl
  | span hcut hescaped hspan hplain hrest =>
    obtain ⟨before, rfl, hcut'⟩ := hcuts hcut
    refine ⟨_, .span hcut' ?_ hspan hplain hrest, rfl⟩
    cases before with
    | nil => exact nofun
    | cons c before => rwa [List.getLast?_append_cons] at hescaped

theorem of_append_literal (h : Cuts escapes (s ++ t) ps) (ht : ∀ c ∈ t, Neutral c) :
    ∃ qs, Cuts escapes s qs ∧ ps = glue qs [.literal t] := by
  generalize hst : s ++ t = u at h
  have hcuts : ∀ {s before after : List Char},
      cut delimiters.opening (s ++ t) = some (before, after) →
      ∃ after', after = after' ++ t ∧ cut delimiters.opening s = some (before, after') := by
    intro s before after hcut
    obtain ⟨hst, hbefore⟩ := cut_opening_iff.mp hcut
    have hst' : before ++ ['#'] ++ '{' :: after = s ++ t := by simp [hst]
    obtain ⟨after', rfl, rfl⟩ := in_first_of_not_mem hst' fun hm => ht '{' hm (by simp)
    exact ⟨after', rfl, cut_opening_iff.mpr ⟨by simp, hbefore⟩⟩
  induction h generalizing s with
  | rest h =>
    subst hst
    exact ⟨[.literal s], .rest (unopened_append.mp h).1, rfl⟩
  | escaped hescapes hcut hescaped hafter ih =>
    subst hst
    obtain ⟨after, rfl, hcut'⟩ := hcuts hcut
    obtain ⟨qs, hqs, rfl⟩ := ih rfl
    exact ⟨_, .escaped hescapes hcut' hescaped hqs, (glue_cons _ hqs _).symm⟩
  | span hcut hescaped hspan hplain hrest ih =>
    subst hst
    obtain ⟨after, rfl, hcut'⟩ := hcuts hcut
    obtain ⟨rest, rfl, hspan'⟩ := spanContent_of_append hspan fun hm => ht '}' hm (by simp)
    obtain ⟨qs, hqs, rfl⟩ := ih rfl
    refine ⟨_, .span hcut' hescaped hspan' hplain hqs, ?_⟩
    rw [← glue_cons _ hqs]
    rfl

end Cuts

theorem filterMap_glue (ps qs : List Piece) :
    (glue ps qs).filterMap Piece.content? =
      ps.filterMap Piece.content? ++ qs.filterMap Piece.content? := by
  fun_induction glue ps qs with
  | case1 => rfl
  | case2 p qs =>
    fun_cases glueOne p qs with
    | case1 => rfl
    | case2 => exact List.filterMap_append (l := [p])
  | case3 p next ps qs ih =>
    rw [← List.singleton_append, List.filterMap_append, ih, ← List.append_assoc,
      ← List.filterMap_append]
    rfl

theorem join_glue (f : String → String) (ps qs : List Piece) :
    String.join ((glue ps qs).map (Piece.replace f)) =
      String.join (ps.map (Piece.replace f)) ++ String.join (qs.map (Piece.replace f)) := by
  fun_induction glue ps qs with
  | case1 => simp
  | case2 p qs =>
    fun_cases glueOne p qs with
    | case1 => simp [Piece.replace, String.append_assoc]
    | case2 => simp
  | case3 p next ps qs ih =>
    have hfirst : String.join ((p :: next :: ps).map (Piece.replace f)) =
        p.replace f ++ String.join ((next :: ps).map (Piece.replace f)) := String.join_cons
    rw [List.map_cons, String.join_cons, ih, hfirst, String.append_assoc]

-- ---------------------------------------------------------------------------
-- Whole texts
-- ---------------------------------------------------------------------------

/-- Every opening delimiter in the text is closed, or else escaped. Where `escapes` is false, no
delimiter is escaped. -/
def Whole (escapes : Bool) (text : String) : Prop :=
  ∃ pieces, Cuts escapes text.toList pieces

/-- The same, read off the pieces: none of them holds a delimiter. An escape leaves a delimiter in
a piece, but not in the last one. -/
def Tidy (escapes : Bool) (text : String) : Prop :=
  ∀ p ∈ if escapes then (delimiters.pieces text).getLast?.toList else delimiters.pieces text,
    isPlain p

instance (escapes : Bool) (text : String) : Decidable (Tidy escapes text) :=
  inferInstanceAs (Decidable (∀ p ∈ _, isPlain p))

theorem Tidy.whole {escapes : Bool} {text : String} (h : Tidy escapes text) :
    Whole escapes text := by
  have ho : delimiters.opening ≠ [] := List.cons_ne_nil _ _
  have hc : delimiters.closing ≠ [] := List.cons_ne_nil _ _
  have hpieces : delimiters.pieces text = delimiters.piecesAfter ho none text.toList := by
    rw [Text.Delimiters.pieces, dif_neg ho, if_neg hc]
  rw [Tidy, hpieces] at h
  have hstart : (none : Option Char) ≠ some '\\' := by simp
  refine ⟨_, cuts_of_isPlain ho hstart ?_ ?_⟩
  · intro p hp
    refine h p ?_
    split
    · exact Option.mem_toList.mpr hp
    · exact List.mem_of_getLast? hp
  · cases escapes with
    | true => exact .inl rfl
    | false => exact .inr h

theorem Cuts.isPlain {ps : List Piece} (h : Cuts false s ps) : ∀ p ∈ ps, isPlain p := by
  induction h with
  | rest h => exact List.forall_mem_singleton.mpr (Option.isNone_iff_eq_none.mpr h)
  | escaped h => cases h
  | span hcut _ _ hplain _ ih =>
    have hcontent := hplain.resolve_left Bool.false_ne_true
    refine List.forall_mem_cons.mpr ⟨?_, List.forall_mem_cons.mpr ⟨?_, ih⟩⟩
    · exact Option.isNone_iff_eq_none.mpr (unopened_of_cut hcut)
    · exact decide_eq_true hcontent

theorem Whole.tidy {escapes : Bool} {text : String} (h : Whole false text) : Tidy escapes text := by
  obtain ⟨ps, hps⟩ := h
  rw [Tidy, hps.pieces]
  intro p hp
  split at hp
  · exact hps.isPlain p (List.mem_of_getLast? (Option.mem_toList.mp hp))
  · exact hps.isPlain p hp

/-- No delimiter is escaped, and every opening one has a closing one after it. -/
def Closed (s : List Char) : Prop :=
  '\\' ∉ s ∧ ∀ rest ∈ s.tails, delimiters.opening <+: rest → '}' ∈ rest

instance (s : List Char) : Decidable (Closed s) :=
  inferInstanceAs (Decidable (_ ∧ ∀ rest ∈ s.tails, _))

theorem Closed.cuts {s : List Char} (h : Closed s) : ∃ ps, Cuts false s ps := by
  have ⟨hescape, hclosed⟩ := h
  cases hcut : cut delimiters.opening s with
  | none => exact ⟨_, .rest hcut⟩
  | some parts =>
    obtain ⟨before, after⟩ := parts
    obtain ⟨hs, -⟩ := cut_opening_iff.mp hcut
    have hmem : '}' ∈ after := by
      have hopened := hclosed ('#' :: '{' :: after)
        ((List.mem_tails _ _).mpr ⟨before, hs.symm⟩) ⟨after, rfl⟩
      simpa using hopened
    obtain ⟨content, rest, hafter, hcontent⟩ := List.eq_append_cons_of_mem hmem
    have hlast : ∀ t : List Char, (∀ c ∈ t, c ∈ s) → t.getLast? ≠ some '\\' :=
      fun t ht hmem => hescape (ht _ (List.mem_of_getLast? hmem))
    have hspan := spanContent_plain hcontent
      (hlast content fun c hc => by simp [hs, hafter, hc]) rest
    rw [← hafter] at hspan
    have hrest : Closed rest := by
      refine ⟨fun hm => hescape (by simp [hs, hafter, hm]), fun tail htail => hclosed tail ?_⟩
      refine (List.mem_tails _ _).mpr (((List.mem_tails _ _).mp htail).trans ?_)
      exact ⟨before ++ '#' :: '{' :: content ++ ['}'], by simp [hs, hafter]⟩
    obtain ⟨ps, hps⟩ := hrest.cuts
    have hbefore := hlast before fun c hc => by simp [hs, hc]
    exact ⟨_, .span hcut hbefore hspan (.inr hcontent) hps⟩
termination_by s.length
decreasing_by
  simp only [hs, hafter, List.length_append, List.length_cons]
  omega

namespace Whole

variable {escapes : Bool} {a b : String}

theorem mono (h : Whole false a) : Whole escapes a := by
  obtain ⟨ps, hps⟩ := h
  exact ⟨ps, hps.mono⟩

theorem append (ha : Whole escapes a) (hb : Whole escapes b) (h : Seam a.toList b.toList) :
    Whole escapes (a ++ b) ∧
      delimiters.contents (a ++ b) = delimiters.contents a ++ delimiters.contents b ∧
      ∀ f, delimiters.replace f (a ++ b) = delimiters.replace f a ++ delimiters.replace f b := by
  obtain ⟨ps, hps⟩ := ha
  obtain ⟨qs, hqs⟩ := hb
  have hglue : Cuts escapes (a ++ b).toList (glue ps qs) := by
    rw [String.toList_append]
    exact hps.append hqs h
  refine ⟨⟨_, hglue⟩, ?_, fun f => ?_⟩
  · simp only [Text.Delimiters.contents, hglue.pieces, hps.pieces, hqs.pieces, filterMap_glue]
  · simp only [Text.Delimiters.replace, hglue.pieces, hps.pieces, hqs.pieces, join_glue]

theorem unopened_of_neutral {s : List Char} (h : ∀ c ∈ s, Neutral c) : Unopened s := by
  induction s with
  | nil => exact unopened_nil
  | cons c s ih =>
    refine unopened_cons.mpr ⟨?_, ih fun d hd => h d (List.mem_cons_of_mem _ hd)⟩
    rintro ⟨rfl, -⟩
    exact h '#' List.mem_cons_self (by simp)

theorem of_neutral (escapes : Bool) (h : ∀ c ∈ a.toList, Neutral c) :
    Whole escapes a ∧ delimiters.contents a = [] ∧ ∀ f, delimiters.replace f a = a := by
  have hcuts : Cuts escapes a.toList [.literal a.toList] := .rest (unopened_of_neutral h)
  refine ⟨⟨_, hcuts⟩, ?_, fun f => ?_⟩
  · simp [Text.Delimiters.contents, hcuts.pieces, Piece.content?]
  · simp [Text.Delimiters.replace, hcuts.pieces, Piece.replace]

theorem append_blank (ha : Whole escapes a) :
    Whole escapes (a ++ " ") ∧ delimiters.contents (a ++ " ") = delimiters.contents a ∧
      ∀ f, delimiters.replace f (a ++ " ") = delimiters.replace f a ++ " " := by
  have hneutral : ∀ c ∈ " ".toList, Neutral c := by simp [Neutral]
  obtain ⟨hblank, hcontents, hreplace⟩ := of_neutral escapes hneutral
  obtain ⟨hwhole, hcontents', hreplace'⟩ := ha.append hblank (.inr (by simp [Neutral]))
  exact ⟨hwhole, by rw [hcontents', hcontents, List.append_nil],
    fun f => by rw [hreplace', hreplace]⟩

theorem join {texts : List String} (h : ∀ text ∈ texts, Whole escapes text) :
    Whole escapes (Template.Context.join texts) ∧
      delimiters.contents (Template.Context.join texts) = texts.flatMap delimiters.contents ∧
      ∀ f, delimiters.replace f (Template.Context.join texts) =
        Template.Context.join (texts.map (delimiters.replace f)) := by
  simp only [Template.Context.join]
  induction texts with
  | nil => exact of_neutral escapes (by simp)
  | cons text rest ih =>
    obtain ⟨htext, hrest⟩ := List.forall_mem_cons.mp h
    cases rest with
    | nil => simpa using htext
    | cons next rest =>
      obtain ⟨hjoin, hcontents, hreplace⟩ := ih hrest
      obtain ⟨hblank, hcontents₁, hreplace₁⟩ := htext.append_blank
      obtain ⟨hwhole, hcontents₂, hreplace₂⟩ :=
        hblank.append hjoin (.inl (by simp [Neutral]))
      rw [String.intercalate_cons_cons]
      refine ⟨hwhole, ?_, fun f => ?_⟩
      · rw [hcontents₂, hcontents₁, hcontents]
        rfl
      · rw [hreplace₂, hreplace₁, hreplace]
        simp

/-- A text is blank as long as what is put in the place of its placeholders is not. -/
theorem allBlank_replace (ha : Whole false a) {f : String → String}
    (hf : ∀ content, Text.allBlank (f content).toList = false) :
    Text.allBlank (delimiters.replace f a).toList = Text.allBlank a.toList := by
  obtain ⟨ps, hps⟩ := ha
  rw [Text.Delimiters.replace, hps.pieces]
  generalize a.toList = s at hps
  cases hps with
  | rest _ => simp [Piece.replace]
  | escaped h => cases h
  | @span _ _ _ content _ _ hcut _ _ _ _ =>
    obtain ⟨rfl, -⟩ := cut_opening_iff.mp hcut
    have hsign : Text.isBlank '#' = false := by decide
    have hspan := hf (String.ofList content)
    simp only [Text.allBlank] at hspan
    simp [Text.allBlank, Piece.replace, hsign, hspan]

theorem of_middle {pre core post : List Char} (ha : Whole escapes a)
    (hparts : a.toList = pre ++ core ++ post) (hpre : ∀ c ∈ pre, Neutral c)
    (hpost : ∀ c ∈ post, Neutral c) :
    Whole escapes (String.ofList core) ∧
      delimiters.contents (String.ofList core) = delimiters.contents a := by
  obtain ⟨ps, hps⟩ := ha
  have hcut := hps
  rw [hparts, List.append_assoc] at hcut
  obtain ⟨qs, hqs, rfl⟩ := hcut.of_literal_append hpre
  obtain ⟨rs, hrs, rfl⟩ := hqs.of_append_literal hpost
  have hcore : Cuts escapes (String.ofList core).toList rs := by rwa [String.toList_ofList]
  refine ⟨⟨rs, hcore⟩, ?_⟩
  have hfirst := filterMap_glue [.literal pre] (glue rs [.literal post])
  rw [filterMap_glue rs] at hfirst
  rw [Text.Delimiters.contents, Text.Delimiters.contents, hcore.pieces, hps.pieces]
  exact (hfirst.trans (List.append_nil _)).symm

end Whole

-- ---------------------------------------------------------------------------
-- Other contents
-- ---------------------------------------------------------------------------

def PlainContent (content : String) : Prop :=
  '}' ∉ content.toList ∧ content.toList.getLast? ≠ some '\\'

def recontent (g : String → String) : Piece → Piece
  | .span content => .span (g (String.ofList content)).toList
  | p => p

theorem Cuts.plainContent {ps : List Piece} (h : Cuts false s ps) :
    ∀ content ∈ ps.filterMap Piece.content?, PlainContent content := by
  induction h with
  | rest _ => exact nofun
  | escaped h => cases h
  | span _ _ hspan hplain _ ih =>
    have hcontent := hplain.resolve_left Bool.false_ne_true
    exact List.forall_mem_cons.mpr ⟨⟨by simpa using hcontent,
      by simpa using (eq_of_spanContent_plain hspan hcontent).2⟩, ih⟩

theorem Cuts.recontent {g : String → String} {ps : List Piece} (h : Cuts false s ps)
    (hg : ∀ content ∈ ps.filterMap Piece.content?, PlainContent (g content)) :
    Cuts false (String.join (ps.map (Piece.replace fun content => ofContent (g content)))).toList
      (ps.map (recontent g)) := by
  induction h with
  | rest h => simpa [Piece.replace, Placeholder.recontent] using Cuts.rest h
  | escaped h => cases h
  | @span s before after content rest ps hcut hlast hspan hplain hrest ih =>
    obtain ⟨hcontent, hrest⟩ := List.forall_mem_cons.mp hg
    have hspan' := spanContent_plain hcontent.1 hcontent.2
      (String.join (ps.map (Piece.replace fun content => ofContent (g content)))).toList
    have hcut' := cut_opening_of_unopened (unopened_of_cut hcut)
      ((g (String.ofList content)).toList ++ '}' ::
        (String.join (ps.map (Piece.replace fun content => ofContent (g content)))).toList)
    simpa [Piece.replace, ofContent, Placeholder.recontent] using
      Cuts.span hcut' hlast hspan' (.inr hcontent.1) (ih hrest)

namespace Whole

variable {text : String} {g : String → String}

theorem plainContent (h : Whole false text) :
    ∀ content ∈ delimiters.contents text, PlainContent content := by
  obtain ⟨ps, hps⟩ := h
  rw [Text.Delimiters.contents, hps.pieces]
  exact hps.plainContent

theorem recontent (h : Whole false text)
    (hg : ∀ content ∈ delimiters.contents text, PlainContent (g content)) :
    Whole false (delimiters.replace (fun content => ofContent (g content)) text) ∧
      delimiters.contents (delimiters.replace (fun content => ofContent (g content)) text) =
        (delimiters.contents text).map g ∧
      ∀ f, delimiters.replace f
          (delimiters.replace (fun content => ofContent (g content)) text) =
        delimiters.replace (fun content => f (g content)) text := by
  obtain ⟨ps, hps⟩ := h
  rw [Text.Delimiters.contents, hps.pieces] at hg
  have hnew := hps.recontent hg
  simp only [Text.Delimiters.contents, Text.Delimiters.replace, hps.pieces, hnew.pieces]
  refine ⟨⟨_, hnew⟩, ?_, fun f => ?_⟩
  · rw [List.filterMap_map, List.map_filterMap]
    refine List.filterMap_congr fun p _ => ?_
    cases p <;> simp [Placeholder.recontent, Piece.content?]
  · rw [List.map_map]
    refine congrArg String.join (List.map_congr_left fun p _ => ?_)
    cases p <;> simp [Placeholder.recontent, Piece.replace]

end Whole

end MappedSql.Placeholder
