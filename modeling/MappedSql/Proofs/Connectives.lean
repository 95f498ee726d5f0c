import MappedSql.Proofs.Appending
import MappedSql.Proofs.Trimming

/-!
# Connectives at the ends of a part

What a trim drops. The part is trimmed, and then it is the connective at its start, the core and the
connective at its end. Of the connectives that are listed for an end, the first one that is found
there goes: at the start as it is written, and at the end without the blanks around it. The two
never meet, as a blank that is left of the leading connective belongs to no trailing one.

The texts of the trim are put around the core as long as there was any text in the part, also if
connectives were all there was.
-/

namespace MappedSql

namespace Text

theorem isBlank_of_printable {c : Char} (hlo : 33 ≤ c.toNat) (hhi : c.toNat < 133) :
    isBlank c = false := by
  have h₁ : ¬c.toNat ≤ 13 := by omega
  have h₂ : ¬c.toNat ≤ 32 := by omega
  simp [isBlank, blankRanges, Ranges.contains, h₁, h₂, hhi]

theorem toUpper_cases (c : Char) :
    c.toUpper = c ∨ 97 ≤ c.toNat ∧ c.toNat ≤ 122 ∧ c.toUpper.toNat = c.toNat - 32 := by
  unfold Char.toUpper
  split
  · rename_i h
    have hlo : 97 ≤ c.toNat := UInt32.le_iff_toNat_le.mp h.1
    have hhi : c.toNat ≤ 122 := UInt32.le_iff_toNat_le.mp h.2
    have hshift : ('A'.val - 'a'.val).toNat = 2 ^ 32 - 32 := by decide
    refine .inr ⟨hlo, hhi, ?_⟩
    rw [Char.toNat, UInt32.toNat_add, hshift, ← Char.toNat]
    omega
  · exact .inl rfl

theorem isBlank_toUpper (c : Char) : isBlank c.toUpper = isBlank c := by
  rcases toUpper_cases c with hsame | ⟨hlo, hhi, hupper⟩
  · rw [hsame]
  · rw [isBlank_of_printable (c := c.toUpper) (by omega) (by omega),
      isBlank_of_printable (by omega) (by omega)]

theorem asciiUpper_append (s s' : List Char) :
    asciiUpper (s ++ s') = asciiUpper s ++ asciiUpper s' :=
  List.map_append

theorem length_asciiUpper (s : List Char) : (asciiUpper s).length = s.length :=
  List.length_map _

theorem blank_of_asciiUpper {s : List Char} (h : ∀ c ∈ asciiUpper s, isBlank c) :
    ∀ c ∈ s, isBlank c :=
  fun c hc => isBlank_toUpper c ▸ h _ (List.mem_map_of_mem hc)

theorem head_asciiUpper {s : List Char} (h : ∀ c ∈ s.head?, isBlank c = false) :
    ∀ c ∈ (asciiUpper s).head?, isBlank c = false := by
  rw [asciiUpper, List.head?_map]
  intro _ hupper
  obtain ⟨c, hc, rfl⟩ := Option.map_eq_some_iff.mp hupper
  rw [isBlank_toUpper, h c hc]

theorem getLast_asciiUpper {s : List Char} (h : ∀ c ∈ s.getLast?, isBlank c = false) :
    ∀ c ∈ (asciiUpper s).getLast?, isBlank c = false := by
  rw [asciiUpper, List.getLast?_map]
  intro _ hupper
  obtain ⟨c, hc, rfl⟩ := Option.map_eq_some_iff.mp hupper
  rw [isBlank_toUpper, h c hc]

theorem exists_trim_of_prefix {s t : List Char} (ht : ∀ c ∈ t.head?, isBlank c = false)
    (h : s <+: t) : ∃ post, s = trim s ++ post ∧ ∀ c ∈ post, isBlank c := by
  obtain ⟨pre, post, hs, hpre, hpost⟩ := exists_trim s
  cases pre with
  | nil => exact ⟨post, by simpa using hs, hpost⟩
  | cons c pre =>
    obtain ⟨rest, rfl⟩ := h
    have hblank := hpre c List.mem_cons_self
    rw [ht c (by rw [hs]; rfl)] at hblank
    cases hblank

theorem trim_suffix_of_suffix {s t : List Char} (ht : ∀ c ∈ t.getLast?, isBlank c = false)
    (h : s <:+ t) : trim s <:+ t := by
  obtain ⟨pre, post, hs, hpre, hpost⟩ := exists_trim s
  refine List.IsSuffix.trans ?_ h
  cases hlast : post.getLast? with
  | none =>
    rw [List.getLast?_eq_none_iff.mp hlast, List.append_nil] at hs
    exact ⟨pre, hs.symm⟩
  | some c =>
    obtain ⟨rest, rfl⟩ := h
    have hblank := hpost c (List.mem_of_getLast? hlast)
    rw [ht c (by rw [hs, List.getLast?_append, List.getLast?_append, hlast]; rfl)] at hblank
    cases hblank

end Text

namespace Template

open Text (asciiUpper isBlank)

namespace Trim

variable {t : Trim} {s before core after : List Char} {connectives : List String}

/-- The parts that a trim takes a trimmed text apart into: the first of its connectives that the
text starts with, and the first that what is left ends with, apart from the blanks around it. -/
structure Parts (t : Trim) (s before core after : List Char) : Prop where
  whole : s = before ++ core ++ after
  leading : asciiUpper before =
    (t.leading.find? (·.toList.isPrefixOf (asciiUpper s))).elim [] String.toList
  trailing : asciiUpper after =
    (t.trailing.find? fun connective =>
      (Text.trim connective.toList).isSuffixOf (asciiUpper (core ++ after))).elim []
        fun connective => Text.trim connective.toList

theorem dropLeading_eq (connectives : List String) (hs : ∀ c ∈ s.head?, isBlank c = false) :
    ∃ before blanks rest, s = before ++ rest ∧
      asciiUpper before =
        (connectives.find? (·.toList.isPrefixOf (asciiUpper s))).elim [] String.toList ∧
      dropLeading connectives s = blanks ++ rest ∧ blanks ++ rest <:+ s ∧
      ∀ c ∈ blanks, isBlank c := by
  unfold dropLeading
  split
  · rename_i connective hfind
    have hstarts := List.find?_some hfind
    have hprefix := List.isPrefixOf_iff_prefix.mp hstarts
    obtain ⟨post, hconnective, hpost⟩ :=
      Text.exists_trim_of_prefix (Text.head_asciiUpper hs) hprefix
    have hwritten : asciiUpper (s.take connective.toList.length) = connective.toList := by
      rw [asciiUpper, List.map_take]
      exact (List.prefix_iff_eq_take.mp hprefix).symm
    have hblanks : asciiUpper ((s.take connective.toList.length).drop (width connective)) =
        post := by
      rw [asciiUpper, List.map_drop, ← asciiUpper, hwritten, hconnective, width]
      exact List.drop_left
    have hdrop : s.drop (width connective) =
        (s.take connective.toList.length).drop (width connective) ++
          s.drop connective.toList.length := by
      conv_lhs => rw [← List.take_append_drop connective.toList.length s]
      rw [List.drop_append_of_le_length]
      rw [← Text.length_asciiUpper, hwritten]
      exact width_le connective
    refine ⟨s.take connective.toList.length, _, s.drop connective.toList.length,
      (List.take_append_drop _ s).symm, hwritten.trans ?_, hdrop, ?_, ?_⟩
    · rw [hfind]
      rfl
    · rw [← hdrop]
      exact List.drop_suffix _ _
    · exact Text.blank_of_asciiUpper (hblanks ▸ hpost)
  · rename_i hfind
    exact ⟨[], [], s, rfl, by rw [hfind]; rfl, rfl, List.suffix_refl _, List.forall_mem_nil _⟩

/-- A trailing connective is found without its blanks, and never in blanks that were left at the
start. -/
theorem ends_iff {blanks rest : List Char} (hblanks : ∀ c ∈ blanks, isBlank c)
    (hlast : ∀ c ∈ (blanks ++ rest).getLast?, isBlank c = false) (connective : List Char) :
    connective <:+ asciiUpper (blanks ++ rest) ∨
        Text.trim connective <:+ asciiUpper (blanks ++ rest) ↔
      Text.trim connective <:+ asciiUpper rest := by
  constructor
  · intro h
    have htrim : Text.trim connective <:+ asciiUpper (blanks ++ rest) :=
      h.elim (Text.trim_suffix_of_suffix (Text.getLast_asciiUpper hlast)) id
    rw [Text.asciiUpper_append] at htrim
    rcases List.suffix_or_suffix_of_suffix htrim (List.suffix_append _ _) with
      hshort | ⟨longer, hlonger⟩
    · exact hshort
    · -- What is longer than the rest begins in the blanks, but no trimmed text does.
      cases longer with
      | nil => exact ⟨[], hlonger.symm⟩
      | cons c longer =>
        obtain ⟨early, hearly⟩ := htrim
        rw [← hlonger, ← List.append_assoc] at hearly
        have hmem : c ∈ asciiUpper blanks := by
          rw [← List.append_cancel_right hearly]
          simp
        have hhead : c ∈ (Text.trim connective).head? := by
          rw [← hlonger]
          rfl
        obtain ⟨d, hd, rfl⟩ := List.mem_map.mp hmem
        have hblank := hblanks d hd
        rw [← Text.isBlank_toUpper, Text.head_trim connective _ hhead] at hblank
        cases hblank
  · intro h
    rw [Text.asciiUpper_append]
    exact .inr (h.trans (List.suffix_append _ _))

theorem dropTrailing_eq (connectives : List String) {blanks rest : List Char}
    (hblanks : ∀ c ∈ blanks, isBlank c)
    (hlast : ∀ c ∈ (blanks ++ rest).getLast?, isBlank c = false) :
    ∃ core after, rest = core ++ after ∧
      asciiUpper after =
        (connectives.find? fun connective =>
          (Text.trim connective.toList).isSuffixOf (asciiUpper rest)).elim []
            (fun connective => Text.trim connective.toList) ∧
      dropTrailing connectives (blanks ++ rest) = blanks ++ core := by
  have hends : (fun connective : String =>
      connective.toList.isSuffixOf (asciiUpper (blanks ++ rest)) ||
        (Text.trim connective.toList).isSuffixOf (asciiUpper (blanks ++ rest))) =
      fun connective => (Text.trim connective.toList).isSuffixOf (asciiUpper rest) := by
    funext connective
    rw [Bool.eq_iff_iff, Bool.or_eq_true, List.isSuffixOf_iff_suffix, List.isSuffixOf_iff_suffix,
      List.isSuffixOf_iff_suffix]
    exact ends_iff hblanks hlast connective.toList
  unfold dropTrailing
  dsimp only
  rw [hends]
  split
  · rename_i connective hfind
    have hfound := List.find?_some hfind
    have hsuffix := List.isSuffixOf_iff_suffix.mp hfound
    have hlength : width connective ≤ rest.length := by
      rw [← Text.length_asciiUpper rest]
      exact hsuffix.length_le
    refine ⟨rest.take (rest.length - width connective), rest.drop (rest.length - width connective),
      (List.take_append_drop _ rest).symm, ?_, ?_⟩
    · rw [hfind, asciiUpper, List.map_drop, ← Text.length_asciiUpper rest]
      exact (List.suffix_iff_eq_drop.mp hsuffix).symm
    · rw [List.length_append, Nat.add_sub_assoc hlength, List.take_length_add_append]
  · rename_i hfind
    exact ⟨rest, [], (List.append_nil rest).symm, by rw [hfind]; rfl, rfl⟩

theorem exists_parts (t : Trim) {part : String} (hpart : Text.trim part.toList ≠ []) :
    ∃ before core after, t.Parts (Text.trim part.toList) before core after ∧
      t.apply part = t.frame (String.ofList (Text.trim core)) := by
  obtain ⟨before, blanks, rest, hwhole, hleading, hdropped, hleft, hblanks⟩ :=
    dropLeading_eq t.leading (Text.head_trim part.toList)
  have hlast : ∀ c ∈ (blanks ++ rest).getLast?, isBlank c = false := by
    obtain ⟨gone, hgone⟩ := hleft
    intro c hc
    refine Text.getLast_trim part.toList c ?_
    rw [← hgone, List.getLast?_append, hc]
    rfl
  obtain ⟨core, after, rfl, htrailing, hkept⟩ := dropTrailing_eq t.trailing hblanks hlast
  refine ⟨before, core, after, ⟨by rw [hwhole, List.append_assoc], hleading, htrailing⟩, ?_⟩
  unfold apply
  split
  · rename_i hempty
    exact absurd hempty hpart
  · rw [hdropped, hkept, Text.trim_append_of_blank hblanks]

theorem Parts.unique {before' core' after' : List Char} (h : t.Parts s before core after)
    (h' : t.Parts s before' core' after') : before = before' ∧ core = core' ∧ after = after' := by
  have hwhole : before ++ (core ++ after) = before' ++ (core' ++ after') := by
    rw [← List.append_assoc, ← List.append_assoc, ← h.whole, h'.whole]
  have hbefore := congrArg List.length (h.leading.trans h'.leading.symm)
  rw [Text.length_asciiUpper, Text.length_asciiUpper] at hbefore
  obtain ⟨rfl, hrest⟩ := List.append_inj hwhole hbefore
  have htrailing := h.trailing
  rw [hrest] at htrailing
  have hafter := congrArg List.length (htrailing.trans h'.trailing.symm)
  rw [Text.length_asciiUpper, Text.length_asciiUpper] at hafter
  obtain ⟨rfl, rfl⟩ := List.append_inj' hrest hafter
  exact ⟨rfl, rfl, rfl⟩

theorem Parts.apply {part : String} (h : t.Parts (Text.trim part.toList) before core after)
    (hpart : Text.trim part.toList ≠ []) :
    t.apply part = t.frame (String.ofList (Text.trim core)) := by
  obtain ⟨_, _, _, h', happly⟩ := t.exists_parts hpart
  obtain ⟨-, rfl, -⟩ := h.unique h'
  exact happly

end Trim

-- ---------------------------------------------------------------------------
-- Trimmed renderings
-- ---------------------------------------------------------------------------

/-- The text of what a part appended is taken apart, once it is trimmed: the connective that is
found at its start as it is written, the one that is found at its end without blanks, and the core
between them. The core is appended instead, with the texts of the trim around it, unless there was
no text at all. -/
theorem trimmed_parts_lose_connectives {t : Trim} {body : Node} {applied : Bool} {c c₁ : Context}
    (h : body.render.outcome c = (.ok applied, c₁)) :
    ∃ fragments text, c₁.fragments = c.fragments ++ fragments ∧
      (Node.trim t body).render.outcome c = (.ok applied,
        { c₁ with fragments := c.fragments ++ if text.isEmpty then [] else [text] }) ∧
      if Text.trim (Context.join fragments).toList = [] then text = ""
      else ∃ before core after,
        t.Parts (Text.trim (Context.join fragments).toList) before core after ∧
          text = t.frame (String.ofList (Text.trim core)) := by
  have happends := body.render_appends c
  rw [h] at happends
  obtain ⟨fragments, hfragments⟩ := happends
  change c.fragments ++ fragments = c₁.fragments at hfragments
  refine ⟨fragments, t.apply (Context.join fragments), hfragments.symm, ?_, ?_⟩
  · rw [Node.render, Trim.around_ok]
    exact ⟨c₁, _, h, rfl, by simp [← hfragments]⟩
  · split
    · rename_i hempty
      unfold Trim.apply
      rw [hempty]
    · rename_i hpart
      exact t.exists_parts hpart

def parenthesized : Trim where
  opening := some "("
  closing := some ")"
  leading := ["AND ", "OR\t"]
  trailing := ["--", ", "]

theorem condition_loses_connectives :
    (Node.literal " or\tn = 'And'  ,\n").render.outcome (Context.start .null none) =
        (.ok true, (Context.start .null none).append " or\tn = 'And'  ,\n") ∧
      (Node.trim parenthesized (.literal " or\tn = 'And'  ,\n")).render.outcome
        (Context.start .null none) =
          (.ok true, (Context.start .null none).append "( n = 'And' )") := by
  have hbody : (Node.literal " or\tn = 'And'  ,\n").render.outcome (Context.start .null none) =
      (.ok true, (Context.start .null none).append " or\tn = 'And'  ,\n") := rfl
  obtain ⟨fragments, text, hfragments, htrim, htext⟩ :=
    trimmed_parts_lose_connectives (t := parenthesized) hbody
  obtain rfl : [" or\tn = 'And'  ,\n"] = fragments := hfragments
  rw [if_neg (by decide +kernel)] at htext
  obtain ⟨before, core, after, hparts, rfl⟩ := htext
  obtain ⟨-, rfl, -⟩ := hparts.unique
    (show parenthesized.Parts _ "or\t".toList "n = 'And'  ".toList ",".toList from
      ⟨by decide +kernel, by decide +kernel, by decide +kernel⟩)
  have hframe : parenthesized.frame (String.ofList (Text.trim "n = 'And'  ".toList)) =
      "( n = 'And' )" := by
    decide +kernel
  rw [hframe] at htrim
  exact ⟨hbody, htrim⟩

/-- A part that is all connective leaves the bare text in front of it, and a connective that stands
after a blank is dropped from the end of a word, too. -/
theorem connectives_alone_leave_frame :
    ((Node.trim Trim.setClause (.literal ",")).render.outcome
        (Context.start .null none)).2.fragments = ["SET "] ∧
      ((Node.trim { trailing := [" AND"] } (.literal "n = BRAND")).render.outcome
        (Context.start .null none)).2.fragments = ["n = BR"] := by
  decide +kernel

end Template

end MappedSql
