import Mathlib.Data.List.Infix
import MappedSql.Text.Delimited

/-!
# Where a mark occurs

Cutting a text at a mark finds the first occurrence: the mark is nowhere in the part before it,
not even together with a start of the occurrence itself. A mark that no part of it ends and starts
is never found across the end of a text that it follows.
-/

namespace MappedSql.Text

variable {mark s t before after : List Char} {c : Char}

theorem isPrefixOf?_append (mark after : List Char) :
    mark.isPrefixOf? (mark ++ after) = some after := by
  induction mark with
  | nil => rfl
  | cons m mark ih =>
    change (if m == m then mark.isPrefixOf? (mark ++ after) else none) = some after
    rw [beq_self_eq_true, if_pos rfl, ih]

theorem isPrefixOf?_eq_some : mark.isPrefixOf? s = some after ↔ s = mark ++ after :=
  ⟨eq_append_of_isPrefixOf?, fun h => h ▸ isPrefixOf?_append mark after⟩

theorem isPrefixOf?_eq_none : mark.isPrefixOf? s = none ↔ ¬mark <+: s := by
  rw [Option.eq_none_iff_forall_ne_some]
  constructor
  · rintro h ⟨after, rfl⟩
    exact h after (isPrefixOf?_append mark after)
  · rintro h after hafter
    exact h ⟨after, (isPrefixOf?_eq_some.mp hafter).symm⟩

theorem cut_append_self (hmark : mark ≠ []) (after : List Char) :
    cut mark (mark ++ after) = some ([], after) := by
  obtain ⟨m, mark, rfl⟩ := List.exists_cons_of_ne_nil hmark
  rw [List.cons_append, cut, ← List.cons_append, isPrefixOf?_append]

theorem cut_cons_of_not_starts (h : ¬mark <+: c :: s) :
    cut mark (c :: s) = (cut mark s).map fun (before, after) => (c :: before, after) := by
  rw [cut, isPrefixOf?_eq_none.mpr h]

theorem cut_eq_none_iff (hmark : mark ≠ []) : cut mark s = none ↔ ¬mark <:+: s := by
  induction s with
  | nil => simp [cut, hmark]
  | cons c s ih =>
    rw [List.infix_cons_iff, not_or]
    by_cases hstarts : mark <+: c :: s
    · obtain ⟨after, hafter⟩ := hstarts
      simp [← hafter, cut_append_self hmark]
    · rw [cut_cons_of_not_starts hstarts, Option.map_eq_none_iff, ih]
      exact (and_iff_right hstarts).symm

theorem absent_dropLast (hmark : mark ≠ []) : ¬mark <:+: mark.dropLast := by
  intro h
  have hlength := h.length_le
  have hpos := List.length_pos_iff.mpr hmark
  rw [List.length_dropLast] at hlength
  omega

theorem append_dropLast_starts (before mark after : List Char) :
    before ++ mark.dropLast <+: before ++ mark ++ after := by
  rw [List.append_assoc, List.prefix_append_right_inj]
  exact (List.dropLast_prefix mark).trans (List.prefix_append mark after)

/-- An occurrence that starts before another one ends before the other one does. -/
theorem prefix_before_iff (c : Char) (before after : List Char) :
    mark <+: c :: (before ++ mark ++ after) ↔ mark <+: c :: (before ++ mark.dropLast) := by
  have hinit : c :: (before ++ mark.dropLast) <+: c :: (before ++ mark ++ after) :=
    (List.prefix_cons_inj c).mpr (append_dropLast_starts before mark after)
  refine ⟨fun h => List.prefix_of_prefix_length_le h hinit ?_, fun h => h.trans hinit⟩
  simp only [List.length_cons, List.length_append, List.length_dropLast]
  omega

theorem cut_eq_some_iff (hmark : mark ≠ []) :
    cut mark s = some (before, after) ↔
      s = before ++ mark ++ after ∧ ¬mark <:+: before ++ mark.dropLast := by
  induction s generalizing before with
  | nil => simp [cut, hmark]
  | cons c s ih =>
    by_cases hstarts : mark <+: c :: s
    · obtain ⟨rest, hrest⟩ := hstarts
      rw [← hrest, cut_append_self hmark]
      cases before with
      | nil => simp [absent_dropLast hmark, eq_comm]
      | cons d before =>
        simp only [Option.some.injEq, Prod.mk.injEq, List.nil_eq, reduceCtorEq, false_and,
          false_iff, not_and, not_not]
        intro h
        have hstart : mark <+: d :: (before ++ mark ++ after) := ⟨rest, h⟩
        exact ((prefix_before_iff d before after).mp hstart).isInfix
    · rw [cut_cons_of_not_starts hstarts, Option.map_eq_some_iff]
      constructor
      · rintro ⟨⟨before, _⟩, hcut, ⟨⟩⟩
        obtain ⟨rfl, hbefore⟩ := ih.mp hcut
        refine ⟨rfl, ?_⟩
        rw [List.cons_append, List.infix_cons_iff, not_or]
        exact ⟨mt (prefix_before_iff c before after).mpr hstarts, hbefore⟩
      · rintro ⟨hs, hbefore⟩
        cases before with
        | nil => exact absurd ⟨after, hs.symm⟩ hstarts
        | cons d before =>
          obtain ⟨rfl, hrest⟩ := List.cons_eq_cons.mp hs
          rw [List.cons_append, List.infix_cons_iff, not_or] at hbefore
          exact ⟨(before, after), ih.mpr ⟨hrest, hbefore.2⟩, rfl⟩

theorem suffix_of_cut_first (hmark : mark ≠ []) (hcut : cut mark s = some (before, after))
    {earlier rest : List Char} (hs : s = earlier ++ mark ++ rest) : rest <:+ after := by
  obtain ⟨hparts, hfirst⟩ := (cut_eq_some_iff hmark).mp hcut
  have hlength := congrArg List.length (hparts.symm.trans hs)
  have hpos := List.length_pos_iff.mpr hmark
  simp only [List.length_append] at hlength
  have hlater : before.length ≤ earlier.length := by
    by_contra hearlier
    have hfirst' : before ++ mark.dropLast <+: s :=
      hparts ▸ append_dropLast_starts before mark after
    have hearlier' : earlier ++ mark <+: s := ⟨rest, hs.symm⟩
    have hstarts : earlier ++ mark <+: before ++ mark.dropLast := by
      refine List.prefix_of_prefix_length_le hearlier' hfirst' ?_
      simp only [List.length_append, List.length_dropLast]
      omega
    exact hfirst ((List.suffix_append earlier mark).isInfix.trans hstarts.isInfix)
  exact List.suffix_of_suffix_length_le ⟨_, hs.symm⟩ ⟨_, hparts.symm⟩ (by omega)

/-- A mark without a character that stands in a text is on one side of it. -/
theorem infix_append_cons_iff (hc : c ∉ mark) :
    mark <:+: s ++ c :: t ↔ mark <:+: s ∨ mark <:+: t := by
  constructor
  · intro h
    rcases List.infix_append_iff_ne_nil.mp h with h | h | ⟨l₁, l₂, -, hl₂, rfl, -, hstarts⟩
    · exact .inl h
    · rcases List.infix_cons_iff.mp h with h | h
      · cases mark with
        | nil => exact .inl List.nil_infix
        | cons d mark =>
          obtain ⟨rfl, -⟩ := List.cons_prefix_cons.mp h
          exact absurd List.mem_cons_self hc
      · exact .inr h
    · obtain ⟨d, l₂, rfl⟩ := List.exists_cons_of_ne_nil hl₂
      obtain ⟨rfl, -⟩ := List.cons_prefix_cons.mp hstarts
      exact absurd (by simp) hc
  · rintro (h | h)
    · exact List.infix_append_of_infix_left h
    · exact List.infix_append_of_infix_right (List.infix_cons h)

/-- No part of the mark both ends and starts it, apart from the whole. -/
def Unbordered (mark : List Char) : Prop :=
  ∀ border ∈ mark.tails, border <+: mark → border = [] ∨ border = mark

instance (mark : List Char) : Decidable (Unbordered mark) :=
  inferInstanceAs (Decidable (∀ border ∈ mark.tails, _))

theorem Unbordered.absent_append (h : Unbordered mark) (hmark : mark ≠ []) (hs : ¬mark <:+: s) :
    ¬mark <:+: s ++ mark.dropLast := by
  rw [List.infix_append_iff_ne_nil]
  rintro (hleft | hright | ⟨start, border, -, hborder, hparts, -, hstarts⟩)
  · exact hs hleft
  · exact absent_dropLast hmark hright
  · have htail : border ∈ mark.tails := (List.mem_tails _ _).mpr ⟨start, hparts.symm⟩
    rcases h border htail (hstarts.trans (List.dropLast_prefix mark)) with rfl | rfl
    · exact hborder rfl
    · exact absent_dropLast hmark hstarts.isInfix

theorem Unbordered.cut_append (h : Unbordered mark) (hmark : mark ≠ []) (hs : ¬mark <:+: s)
    (t : List Char) : cut mark (s ++ mark ++ t) = some (s, t) :=
  (cut_eq_some_iff hmark).mpr ⟨rfl, h.absent_append hmark hs⟩

end MappedSql.Text
