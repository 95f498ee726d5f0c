import Mathlib.Data.List.TakeWhile
import MappedSql.Proofs.PlaceholderTexts

/-!
# What a trim takes away

A trim takes blanks and connectives from the ends of its part, and puts its texts around what is
left. So the placeholders of the part stay, as long as no connective can cut into one.
-/

namespace MappedSql

namespace Text

theorem exists_trimEnd (s : List Char) : ∃ post, s = trimEnd s ++ post ∧ ∀ c ∈ post, isBlank c := by
  induction s with
  | nil => exact ⟨[], rfl, nofun⟩
  | cons c s ih =>
    obtain ⟨post, hs, hpost⟩ := ih
    change ∃ post,
      c :: s = (if (trimEnd s).isEmpty && isBlank c then [] else c :: trimEnd s) ++ post ∧ _
    split
    · rename_i h
      obtain ⟨hempty, hc⟩ := Bool.and_eq_true_iff.mp h
      rw [List.isEmpty_iff.mp hempty, List.nil_append] at hs
      exact ⟨c :: s, rfl, List.forall_mem_cons.mpr ⟨hc, hs ▸ hpost⟩⟩
    · exact ⟨post, by rw [List.cons_append, ← hs], hpost⟩

theorem head?_trimEnd (s : List Char) :
    (trimEnd s).head? = none ∨ (trimEnd s).head? = s.head? := by
  obtain ⟨post, hs, -⟩ := exists_trimEnd s
  cases htrim : trimEnd s with
  | nil => exact .inl rfl
  | cons c rest =>
    refine .inr ?_
    rw [hs, htrim]
    rfl

theorem getLast_trimEnd (s : List Char) : ∀ c ∈ (trimEnd s).getLast?, isBlank c = false := by
  induction s with
  | nil => exact nofun
  | cons c s ih =>
    change ∀ d ∈ (if (trimEnd s).isEmpty && isBlank c then [] else c :: trimEnd s).getLast?, _
    split
    · exact nofun
    · rename_i h
      cases htrim : trimEnd s with
      | nil =>
        rw [htrim] at h
        intro d hd
        obtain rfl : c = d := Option.some.inj hd
        simpa using h
      | cons d rest => rwa [htrim] at ih

theorem trimEnd_eq_self {s : List Char} (h : ∀ c ∈ s.getLast?, isBlank c = false) :
    trimEnd s = s := by
  obtain ⟨post, hs, hpost⟩ := exists_trimEnd s
  cases hlast : post.getLast? with
  | none =>
    rw [List.getLast?_eq_none_iff.mp hlast, List.append_nil] at hs
    exact hs.symm
  | some c =>
    have hblank := hpost c (List.mem_of_getLast? hlast)
    rw [h c (by rw [hs, List.getLast?_append, hlast]; rfl)] at hblank
    cases hblank

theorem exists_trim (s : List Char) :
    ∃ pre post, s = pre ++ trim s ++ post ∧ (∀ c ∈ pre, isBlank c) ∧ ∀ c ∈ post, isBlank c := by
  obtain ⟨post, hs, hpost⟩ := exists_trimEnd (trimStart s)
  refine ⟨s.takeWhile isBlank, post, ?_, fun c hc => (List.mem_takeWhile_imp hc), hpost⟩
  rw [trim, List.append_assoc, ← hs, trimStart, List.takeWhile_append_dropWhile]

theorem head_trim (s : List Char) : ∀ c ∈ (trim s).head?, isBlank c = false := by
  intro c hc
  rcases head?_trimEnd (trimStart s) with hnone | hsame
  · rw [trim, hnone] at hc
    cases hc
  · rw [trim, hsame] at hc
    have hstop := List.head?_dropWhile_not isBlank s
    rw [← trimStart, hc] at hstop
    simpa using hstop

theorem getLast_trim (s : List Char) : ∀ c ∈ (trim s).getLast?, isBlank c = false :=
  getLast_trimEnd _

theorem trim_eq_self {s : List Char} (hhead : ∀ c ∈ s.head?, isBlank c = false)
    (hlast : ∀ c ∈ s.getLast?, isBlank c = false) : trim s = s := by
  have hstart : trimStart s = s := by
    cases s with
    | nil => rfl
    | cons c s => exact List.dropWhile_cons_of_neg (by simpa using hhead)
  rw [trim, hstart, trimEnd_eq_self hlast]

theorem trim_append_of_blank {pre : List Char} (h : ∀ c ∈ pre, isBlank c) (s : List Char) :
    trim (pre ++ s) = trim s := by
  rw [trim, trimStart, List.dropWhile_append_of_pos h]
  rfl

theorem trimEnd_append_right_of_blank {post : List Char} (h : ∀ c ∈ post, isBlank c) (s : List Char) :
    trimEnd (s ++ post) = trimEnd s := by
  have hpost : trimEnd post = [] := by
    induction post with
    | nil => rfl
    | cons c post ih =>
      obtain ⟨hc, hrest⟩ := List.forall_mem_cons.mp h
      change (if (trimEnd post).isEmpty && isBlank c then [] else c :: trimEnd post) = []
      simp [ih hrest, hc]
  rw [trimEnd, List.foldr_append]
  change s.foldr _ (trimEnd post) = _
  rw [hpost]
  rfl

theorem trim_append_right_of_blank {post : List Char} (h : ∀ c ∈ post, isBlank c) (s : List Char) :
    trim (s ++ post) = trim s := by
  simp only [trim, trimStart, List.dropWhile_append]
  split
  · rename_i hempty
    rw [List.isEmpty_iff.mp hempty, List.dropWhile_eq_nil_iff.mpr h]
  · exact trimEnd_append_right_of_blank h _

theorem trim_padded {pre s post : List Char} (hpre : ∀ c ∈ pre, isBlank c)
    (hpost : ∀ c ∈ post, isBlank c) (hs : trim s = s) : trim (pre ++ s ++ post) = s := by
  rw [trim_append_right_of_blank hpost, trim_append_of_blank hpre, hs]

theorem trim_sublist (s : List Char) : (trim s).Sublist s := by
  obtain ⟨pre, post, hs, -⟩ := exists_trim s
  conv_rhs => rw [hs]
  exact (List.sublist_append_right pre _).trans (List.sublist_append_left _ post)

end Text

namespace Template.Trim

theorem width_le (connective : String) : width connective ≤ connective.toList.length :=
  (Text.trim_sublist _).length_le

theorem exists_dropLeading (connectives : List String) (s : List Char) :
    ∃ pre, s = pre ++ dropLeading connectives s ∧
      ∀ c ∈ pre, ∃ connective ∈ connectives, c.toUpper ∈ connective.toList := by
  unfold dropLeading
  split
  · rename_i connective hfind
    have hmem := List.mem_of_find?_eq_some hfind
    have hprefix := List.find?_some hfind
    obtain ⟨rest, hrest⟩ := List.isPrefixOf_iff_prefix.mp hprefix
    refine ⟨s.take (width connective), (List.take_append_drop _ s).symm, fun c hc => ?_⟩
    have hupper : c.toUpper ∈ (Text.asciiUpper s).take (width connective) := by
      rw [Text.asciiUpper, ← List.map_take]
      exact List.mem_map_of_mem hc
    rw [← hrest, List.take_append_of_le_length (width_le connective)] at hupper
    exact ⟨connective, hmem, List.mem_of_mem_take hupper⟩
  · exact ⟨[], rfl, nofun⟩

theorem exists_dropTrailing (connectives : List String) (s : List Char) :
    ∃ post, s = dropTrailing connectives s ++ post ∧
      ∀ c ∈ post, ∃ connective ∈ connectives, c.toUpper ∈ connective.toList := by
  unfold dropTrailing
  dsimp only
  split
  · rename_i connective hfind
    have hmem := List.mem_of_find?_eq_some hfind
    refine ⟨s.drop (s.length - width connective), (List.take_append_drop _ s).symm, fun c hc => ?_⟩
    have hupper : c.toUpper ∈ (Text.asciiUpper s).drop (s.length - width connective) := by
      rw [Text.asciiUpper, ← List.map_drop]
      exact List.mem_map_of_mem hc
    -- A connective may end the text with its blanks or without: as its width is counted without,
    -- all that is dropped is in it either way.
    have hlast : ∀ text, text <:+ Text.asciiUpper s → width connective ≤ text.length →
        c.toUpper ∈ text := by
      rintro text ⟨before, hbefore⟩ hwidth
      have hlength : before.length + text.length = s.length := by
        rw [← List.length_append, hbefore, Text.asciiUpper, List.length_map]
      rw [← hbefore, List.drop_append, List.drop_eq_nil_of_le (by omega), List.nil_append] at hupper
      exact List.mem_of_mem_drop hupper
    have hends := List.find?_some hfind
    refine ⟨connective, hmem, ?_⟩
    rcases Bool.or_eq_true_iff.mp hends with hsuffix | hsuffix
    · exact hlast _ (List.isSuffixOf_iff_suffix.mp hsuffix) (width_le connective)
    · exact (Text.trim_sublist _).subset
        (hlast _ (List.isSuffixOf_iff_suffix.mp hsuffix) (Nat.le_refl _))
  · exact ⟨[], by simp, nofun⟩

/-- No connective has a character of a delimiter in it, or escapes one. -/
def Harmless (t : Trim) : Prop :=
  ∀ connective ∈ t.leading ++ t.trailing, ∀ c ∈ connective.toList, Placeholder.Neutral c

instance (t : Trim) : Decidable t.Harmless :=
  decidable_of_iff ((t.leading ++ t.trailing).all fun connective =>
    connective.toList.all (decide <| Placeholder.Neutral ·)) (by
      simp only [Harmless, List.all_eq_true, decide_eq_true_eq])

theorem neutral_of_isBlank {c : Char} (h : Text.isBlank c) : Placeholder.Neutral c := by
  intro hc
  simp only [List.mem_cons, List.not_mem_nil, or_false] at hc
  rcases hc with rfl | rfl | rfl | rfl
  all_goals exact absurd h (by decide)

theorem neutral_of_toUpper {c : Char} (h : Placeholder.Neutral c.toUpper) :
    Placeholder.Neutral c := by
  intro hc
  simp only [List.mem_cons, List.not_mem_nil, or_false] at hc
  rcases hc with rfl | rfl | rfl | rfl
  all_goals exact h (by decide)

/-- A part without text stays empty. Of any other, what is framed is left when blanks and
connectives are taken from its ends. -/
theorem apply_cases (t : Trim) (part : String) :
    t.apply part = "" ∧ Text.allBlank part.toList ∨
      ∃ pre core post, part.toList = pre ++ core ++ post ∧
        t.apply part = t.frame (String.ofList core) ∧
        (t.Harmless → (∀ c ∈ pre, Placeholder.Neutral c) ∧ ∀ c ∈ post, Placeholder.Neutral c) := by
  obtain ⟨before, after, hpart, hbefore, hafter⟩ := Text.exists_trim part.toList
  unfold apply
  split
  · rename_i hempty
    refine .inl ⟨rfl, ?_⟩
    rw [hempty, List.append_nil] at hpart
    rw [hpart, Text.allBlank, List.all_eq_true]
    exact fun c hc => (List.mem_append.mp hc).elim (hbefore c) (hafter c)
  · obtain ⟨pre, hleading, hpre⟩ := exists_dropLeading t.leading (Text.trim part.toList)
    obtain ⟨post, htrailing, hpost⟩ :=
      exists_dropTrailing t.trailing (dropLeading t.leading (Text.trim part.toList))
    obtain ⟨before', after', hcore, hbefore', hafter'⟩ :=
      Text.exists_trim (dropTrailing t.trailing (dropLeading t.leading (Text.trim part.toList)))
    refine .inr ⟨before ++ pre ++ before', _, after' ++ post ++ after, ?_, rfl, fun h => ?_⟩
    · conv_lhs => rw [hpart, hleading, htrailing, hcore]
      simp only [List.append_assoc]
    · have hconnective : ∀ c, (∃ connective ∈ t.leading ++ t.trailing,
          c.toUpper ∈ connective.toList) → Placeholder.Neutral c := by
        rintro c ⟨connective, hmem, hc⟩
        exact neutral_of_toUpper (h connective hmem _ hc)
      simp only [List.mem_append] at hconnective ⊢
      constructor
      · rintro c ((hc | hc) | hc)
        · exact neutral_of_isBlank (hbefore c hc)
        · obtain ⟨connective, hmem, hc⟩ := hpre c hc
          exact hconnective c ⟨connective, .inl hmem, hc⟩
        · exact neutral_of_isBlank (hbefore' c hc)
      · rintro c ((hc | hc) | hc)
        · exact neutral_of_isBlank (hafter' c hc)
        · obtain ⟨connective, hmem, hc⟩ := hpost c hc
          exact hconnective c ⟨connective, .inr hmem, hc⟩
        · exact neutral_of_isBlank (hafter c hc)

open Placeholder (delimiters Whole)

theorem whole_frame {escapes : Bool} {t : Trim} {core : String} (hcore : Whole escapes core)
    (hopening : ∀ text ∈ t.opening, Whole escapes text)
    (hclosing : ∀ text ∈ t.closing, Whole escapes text) :
    Whole escapes (t.frame core) ∧
      delimiters.contents (t.frame core) = t.opening.toList.flatMap delimiters.contents ++
        delimiters.contents core ++ t.closing.toList.flatMap delimiters.contents := by
  have hopened : Whole escapes ((t.opening.map (· ++ " ")).getD "" ++ core) ∧
      delimiters.contents ((t.opening.map (· ++ " ")).getD "" ++ core) =
        t.opening.toList.flatMap delimiters.contents ++ delimiters.contents core := by
    cases h : t.opening with
    | none => simpa using hcore
    | some opening =>
      obtain ⟨hblank, hcontents, -⟩ := (hopening opening h).append_blank
      obtain ⟨hwhole, hcontents', -⟩ := hblank.append hcore (.inl (by simp [Placeholder.Neutral]))
      exact ⟨hwhole, by simpa [hcontents] using hcontents'⟩
  unfold frame
  cases h : t.closing with
  | none => simpa using hopened
  | some closing =>
    obtain ⟨hblank, hcontents, -⟩ := hopened.1.append_blank
    obtain ⟨hwhole, hcontents', -⟩ :=
      hblank.append (hclosing closing h) (.inl (by simp [Placeholder.Neutral]))
    simp only [Option.map_some, Option.getD_some, ← String.append_assoc]
    exact ⟨hwhole, by rw [hcontents', hcontents, hopened.2]; simp⟩

/-- The placeholders of a trimmed part are its own, and those of the texts around it, if there
is anything to put them around. -/
theorem whole_apply {escapes : Bool} {t : Trim} {part : String} (ht : t.Harmless)
    (hpart : Whole escapes part) (hopening : ∀ text ∈ t.opening, Whole escapes text)
    (hclosing : ∀ text ∈ t.closing, Whole escapes text) :
    Whole escapes (t.apply part) ∧
      delimiters.contents (t.apply part) =
        (if (t.apply part).isEmpty then [] else t.opening.toList.flatMap delimiters.contents) ++
          delimiters.contents part ++
          if (t.apply part).isEmpty then [] else t.closing.toList.flatMap delimiters.contents := by
  rcases t.apply_cases part with ⟨happly, hblank⟩ | ⟨pre, core, post, hparts, happly, hneutral⟩
  · have hneutral : ∀ c ∈ part.toList, Placeholder.Neutral c :=
      fun c hc => neutral_of_isBlank (List.all_eq_true.mp hblank c hc)
    obtain ⟨hwhole, hcontents, -⟩ := Whole.of_neutral escapes hneutral
    obtain ⟨hempty, hcontents', -⟩ :=
      Whole.of_neutral escapes (a := "") (by simp)
    rw [happly]
    exact ⟨hempty, by simp [hcontents, hcontents']⟩
  · obtain ⟨hpre, hpost⟩ := hneutral ht
    obtain ⟨hcore, hcontents⟩ := hpart.of_middle hparts hpre hpost
    rw [happly]
    obtain ⟨hwhole, hframe⟩ := whole_frame hcore hopening hclosing
    refine ⟨hwhole, ?_⟩
    rw [hframe, hcontents]
    split
    · rename_i hempty
      have hnone : t.opening = none ∧ t.closing = none := by
        have hlist := congrArg String.toList (String.isEmpty_iff.mp hempty)
        cases ho : t.opening <;> cases hc : t.closing <;> simp_all [frame]
      simp [hnone]
    · rfl

end Template.Trim

end MappedSql
