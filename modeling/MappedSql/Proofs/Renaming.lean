import Mathlib.Data.List.TakeWhile
import MappedSql.Proofs.PlaceholderTexts

/-!
# Placeholders under other names

In the text of its body a loop puts the name of an element in the place of its own name, where a
placeholder starts with that. What a placeholder starts with is not always what it reads: an
option can name another property, and an index can follow the name. Where it is, the name of the
element is all that changes in the path of the property. A name of an element tells which name of
a loop and which number it was made from.
-/

namespace MappedSql

namespace Path

variable {x r : List Char}

theorem segments_append (hx : '.' ∉ x) (r : List Char) :
    segments (x ++ r) = (x ++ (segments r).1, (segments r).2) := by
  induction x with
  | nil => rfl
  | cons c x ih =>
    obtain ⟨hc, hx⟩ := not_or.mp (mt List.mem_cons.mpr hx)
    rw [List.cons_append, segments]
    · rw [ih hx]
      rfl
    · rintro rfl
      exact hc rfl

theorem step_plain (hx : '[' ∉ x) : step x = ⟨String.ofList x, String.ofList x, none⟩ := by
  have hall : ∀ c ∈ x, (c != '[') = true := fun c hc => by
    simpa using fun h : c = '[' => hx (h ▸ hc)
  have htake : x.takeWhile (· != '[') = x := List.takeWhile_eq_self_iff.mpr hall
  have hdrop : x.dropWhile (· != '[') = [] := List.dropWhile_eq_nil_iff.mpr hall
  simp only [step, htake, hdrop]

theorem ofText_append (hpoint : '.' ∉ x) (hbracket : '[' ∉ x) (hr : (segments r).1 = []) :
    ofText (String.ofList (x ++ r)) =
      ⟨⟨String.ofList x, String.ofList x, none⟩, (segments r).2.map step⟩ := by
  rw [ofText, String.toList_ofList, segments_append hpoint, hr, List.append_nil]
  exact congrArg (Path.mk · _) (step_plain hbracket)

theorem segments_eq_nil_of_head (hpoint : '.' ∉ x) (hbracket : '[' ∉ x)
    (hname : (ofText (String.ofList (x ++ r))).head.name = String.ofList x)
    (hindex : (ofText (String.ofList (x ++ r))).head.index = none) : (segments r).1 = [] := by
  have hall : ∀ c ∈ x, (c != '[') = true := fun c hc => by
    simpa using fun h : c = '[' => hbracket (h ▸ hc)
  rw [ofText, String.toList_ofList, segments_append hpoint] at hname hindex
  simp only [step, List.takeWhile_append_of_pos hall,
    List.dropWhile_append_of_pos hall] at hname hindex
  have htake : (segments r).1.takeWhile (· != '[') = [] := by
    simpa using String.ofList_injective hname
  have hdrop : (segments r).1.dropWhile (· != '[') = [] := by
    split at hindex
    · assumption
    · cases hindex
  rw [← List.takeWhile_append_dropWhile (p := (· != '[')) (l := (segments r).1), htake, hdrop]
  rfl

end Path

namespace Placeholder

variable {content name : String} {parts parts' found : Parts} {s x rest : List Char}

-- ---------------------------------------------------------------------------
-- Options
-- ---------------------------------------------------------------------------

/-- Parts that are read go over those that were there before. -/
def Over (read : String → Option String) (before after : Parts) : Prop :=
  ∀ key, Keyed.get? after key = (read key).or (Keyed.get? before key)

theorem Over.put {read : String → Option String} {before after : Parts} {value : String}
    (h : Over read (Keyed.put before name value) after) :
    Over (fun key => (read key).or (if key = name then some value else none)) before after := by
  intro key
  rw [h key, Option.or_assoc]
  by_cases hk : key = name
  · subst hk
    simp [Keyed.get?_put_self]
  · simp [Keyed.get?_put_of_ne _ _ hk, hk]

/-- What options say does not depend on what was there before. -/
theorem readOptions_ok (h : readOptions parts s = .ok found) :
    ∃ read, Over read parts found ∧
      ∀ parts', ∃ found', readOptions parts' s = .ok found' ∧ Over read parts' found' := by
  fun_induction readOptions parts s with
  | case1 parts s hs =>
    cases h
    refine ⟨fun _ => none, fun _ => rfl, fun parts' => ⟨parts', ?_, fun _ => rfl⟩⟩
    rw [readOptions]
    split
    · rfl
    · simp_all
  | case2 => cases h
  | case3 parts s c rest hs head afterSign hsign name value ih =>
    obtain ⟨read, hread, hother⟩ := ih h
    refine ⟨_, hread.put, fun parts' => ?_⟩
    obtain ⟨found', hfound', hreadAgain⟩ := hother (Keyed.put parts' name value)
    refine ⟨found', ?_, hreadAgain.put⟩
    rw [readOptions]
    split
    · simp_all
    · rename_i hs'
      cases hs.symm.trans hs'
      split
      · simp_all
      · rename_i hsign'
        cases hsign.symm.trans hsign'
        exact hfound'

theorem readRest_ok (h : readRest content parts s = .ok found) :
    ∃ read, Over read parts found ∧
      ∀ content' parts', ∃ found', readRest content' parts' s = .ok found' ∧
        Over read parts' found' := by
  unfold readRest at h ⊢
  dsimp only at h ⊢
  split at h
  · cases h
    exact ⟨fun _ => none, fun _ => rfl, fun _ parts' => ⟨parts', rfl, fun _ => rfl⟩⟩
  · split at h
    · cases h
    · obtain ⟨read, hread, hother⟩ := readOptions_ok h
      refine ⟨_, hread.put, fun _ parts' => ?_⟩
      obtain ⟨found', hfound', hreadAgain⟩ := hother (Keyed.put parts' "jdbcType" _)
      exact ⟨found', hfound', hreadAgain.put⟩
  · obtain ⟨read, hread, hother⟩ := readOptions_ok h
    exact ⟨read, hread, fun _ parts' => hother parts'⟩
  · cases h

/-- What is read up to the first option, or the driver type. -/
def isNamePart (c : Char) : Bool := c != ',' && c != ':'

def leading (content : String) : String :=
  part ((skipSpaces content.toList).takeWhile isNamePart)

def options (content : String) : Except Fault Parts :=
  readRest content [] ((skipSpaces content.toList).dropWhile isNamePart)

def Direct (content : String) : Prop :=
  ∃ parts, options content = .ok parts ∧ Keyed.get? parts "property" = none

instance (content : String) : Decidable (Direct content) :=
  match h : options content with
  | .ok parts =>
    decidable_of_iff (Keyed.get? parts "property" = none) (by simp [Direct, h])
  | .error _ => isFalse (by simp [Direct, h])

theorem property?_eq_leading (h : Direct content) {c : Char} (hc : c ≠ '(')
    (hs : skipSpaces content.toList = c :: s) : property? content = some (leading content) := by
  obtain ⟨found, hfound, hproperty⟩ := h
  rw [options, hs] at hfound
  obtain ⟨read, hread, hother⟩ := readRest_ok hfound
  obtain ⟨found', hfound', hreadAgain⟩ := hother content [("property", leading content)]
  have hparts : parts content = .ok found' := by
    rw [parts, hs]
    rw [leading, hs] at hfound'
    split
    · rename_i heq
      cases heq
    · rename_i heq
      cases heq
      exact absurd rfl hc
    · exact hfound'
  have hnone : read "property" = none := by
    have hboth := hread "property"
    rw [hproperty] at hboth
    exact (Option.or_eq_none_iff.mp hboth.symm).1
  rw [property?, hparts]
  exact (hreadAgain "property").trans (by rw [hnone]; rfl)

-- ---------------------------------------------------------------------------
-- Names at the start
-- ---------------------------------------------------------------------------

/-- A character that ends no name, neither in a path nor in a placeholder. -/
def isNameChar (c : Char) : Bool :=
  !isSpace c && !Text.isBlank c && c ∉ ['.', ',', ':', '[', '(']

theorem isNameChar_iff {c : Char} :
    isNameChar c ↔
      ¬isSpace c ∧ ¬Text.isBlank c ∧ c ≠ '.' ∧ c ≠ ',' ∧ c ≠ ':' ∧ c ≠ '[' ∧ c ≠ '(' := by
  simp [isNameChar, and_assoc]

structure PlainName (name : String) : Prop where
  ne_empty : name ≠ ""
  isNameChar : ∀ c ∈ name.toList, isNameChar c

instance (name : String) : Decidable (PlainName name) :=
  decidable_of_iff (name ≠ "" ∧ name.toList.all Placeholder.isNameChar)
    ⟨fun h => ⟨h.1, List.all_eq_true.mp h.2⟩,
      fun h => ⟨h.ne_empty, List.all_eq_true.mpr h.isNameChar⟩⟩

/-- The name at the start of a content, by which a loop knows its placeholders. -/
def firstName (content : String) : String :=
  String.ofList ((Text.trimStart content.toList).takeWhile (!Template.Loop.endsName ·))

def afterName (content : String) : String :=
  String.ofList ((Text.trimStart content.toList).dropWhile (!Template.Loop.endsName ·))

theorem not_endsName_of_isNameChar {c : Char} (h : isNameChar c) :
    Template.Loop.endsName c = false := by
  obtain ⟨-, hblank, hpoint, hcomma, hcolon, -⟩ := isNameChar_iff.mp h
  simp [Template.Loop.endsName, hblank, hpoint, hcomma, hcolon]

theorem isNameChar_of_isDigit {c : Char} (h : c.isDigit) : isNameChar c := by
  have hrange : 48 ≤ c.toNat ∧ c.toNat ≤ 57 := by
    simp only [Char.isDigit, Bool.and_eq_true, decide_eq_true_eq] at h
    exact ⟨UInt32.le_iff_toNat_le.mp h.1, UInt32.le_iff_toNat_le.mp h.2⟩
  have hspace : ¬isSpace c := by
    intro hc
    have hle : c.toNat ≤ 32 := UInt32.le_iff_toNat_le.mp (of_decide_eq_true hc)
    omega
  have hblank : ¬Text.isBlank c := by
    simp [Text.isBlank, Text.blankRanges, Text.Ranges.contains]
    omega
  refine isNameChar_iff.mpr ⟨hspace, hblank, ?_, ?_, ?_, ?_, ?_⟩
  all_goals
    rintro rfl
    exact absurd h (by decide)

theorem isNamePart_of_isNameChar {c : Char} (h : isNameChar c) : isNamePart c := by
  obtain ⟨-, -, -, hcomma, hcolon, -⟩ := isNameChar_iff.mp h
  simp [isNamePart, hcomma, hcolon]

theorem isNamePart_of_isBlank {c : Char} (h : Text.isBlank c) : isNamePart c := by
  simp only [isNamePart, Bool.and_eq_true, bne_iff_ne]
  constructor
  · rintro rfl
    exact absurd h (by decide)
  · rintro rfl
    exact absurd h (by decide)

theorem trimStart_eq_firstName_append (content : String) :
    Text.trimStart content.toList = (firstName content).toList ++ (afterName content).toList := by
  simp [firstName, afterName]

theorem endsName_head_afterName (content : String) :
    (afterName content).toList.head?.all Template.Loop.endsName := by
  have hstop := List.head?_dropWhile_not (fun c => !Template.Loop.endsName c)
    (Text.trimStart content.toList)
  rw [afterName, String.toList_ofList]
  cases h : ((Text.trimStart content.toList).dropWhile (!Template.Loop.endsName ·)).head? with
  | none => rfl
  | some c =>
    rw [h] at hstop
    simpa using hstop

theorem firstName_eq {name : String} (hname : PlainName name)
    (hcontent : Text.trimStart content.toList = name.toList ++ rest)
    (hrest : rest.head?.all Template.Loop.endsName) :
    firstName content = name ∧ afterName content = String.ofList rest := by
  have hall : ∀ c ∈ name.toList, (!Template.Loop.endsName c) = true := fun c hc => by
    simp [not_endsName_of_isNameChar (hname.isNameChar c hc)]
  have hstop : rest.takeWhile (!Template.Loop.endsName ·) = [] ∧
      rest.dropWhile (!Template.Loop.endsName ·) = rest := by
    cases rest with
    | nil => exact ⟨rfl, rfl⟩
    | cons c rest => simp_all
  rw [firstName, afterName, hcontent, List.takeWhile_append_of_pos hall,
    List.dropWhile_append_of_pos hall, hstop.1, hstop.2]
  simp

theorem exists_skipSpaces {c : Char} (h : Text.trimStart s = c :: rest) (hc : ¬isSpace c) :
    ∃ lead, skipSpaces s = lead ++ c :: rest ∧ ∀ d ∈ lead, Text.isBlank d := by
  induction s with
  | nil => cases h
  | cons d s ih =>
    by_cases hblank : Text.isBlank d
    · by_cases hspace : isSpace d
      · rw [Text.trimStart, List.dropWhile_cons_of_pos hblank] at h
        rw [skipSpaces, List.dropWhile_cons_of_pos hspace]
        exact ih h
      · refine ⟨(d :: s).takeWhile Text.isBlank, ?_, fun e he => List.mem_takeWhile_imp he⟩
        rw [← h, Text.trimStart, List.takeWhile_append_dropWhile, skipSpaces,
          List.dropWhile_cons_of_neg hspace]
    · rw [Text.trimStart, List.dropWhile_cons_of_neg hblank] at h
      cases h
      exact ⟨[], by rw [skipSpaces, List.dropWhile_cons_of_neg hc]; rfl, nofun⟩

theorem trimEnd_append {a b : List Char} (ha : ∀ c ∈ a, ¬Text.isBlank c) :
    Text.trimEnd (a ++ b) = a ++ Text.trimEnd b := by
  induction a with
  | nil => rfl
  | cons c a ih =>
    obtain ⟨hc, ha⟩ := List.forall_mem_cons.mp ha
    change (if (Text.trimEnd (a ++ b)).isEmpty && Text.isBlank c then []
      else c :: Text.trimEnd (a ++ b)) = _
    rw [ih ha]
    simp [hc]

def pathAfter (rest : List Char) : List Char :=
  Text.trimEnd (rest.takeWhile isNamePart)

/-- The first part of a content that starts with a name is a path from that name. -/
theorem leading_of_firstName {name : String} (hname : PlainName name)
    (hfirst : firstName content = name) :
    leading content = String.ofList (name.toList ++ pathAfter (afterName content).toList) ∧
      (skipSpaces content.toList).dropWhile isNamePart =
        (afterName content).toList.dropWhile isNamePart ∧
      ∃ c s, skipSpaces content.toList = c :: s ∧ c ≠ '(' := by
  obtain ⟨d, ds, hd⟩ := List.exists_cons_of_ne_nil (mt String.toList_eq_nil_iff.mp hname.ne_empty)
  have hchar : ∀ c ∈ name.toList, isNameChar c := hname.isNameChar
  have hpart : ∀ c ∈ name.toList, isNamePart c := fun c hc => isNamePart_of_isNameChar (hchar c hc)
  obtain ⟨hspace, hnotBlank, -, -, -, -, hparen⟩ :=
    isNameChar_iff.mp (hchar d (hd ▸ List.mem_cons_self))
  have hstart := trimStart_eq_firstName_append content
  rw [hfirst] at hstart
  have hcons : Text.trimStart content.toList = d :: (ds ++ (afterName content).toList) := by
    rw [hstart, hd, List.cons_append]
  obtain ⟨lead, hlead, hblank⟩ := exists_skipSpaces hcons hspace
  rw [← List.cons_append, ← hd] at hlead
  have hleadPart : ∀ c ∈ lead, isNamePart c := fun c hc => isNamePart_of_isBlank (hblank c hc)
  refine ⟨?_, ?_, ?_⟩
  · have htrim : Text.trimStart (lead ++ (name.toList ++
        (afterName content).toList.takeWhile isNamePart)) =
        name.toList ++ (afterName content).toList.takeWhile isNamePart := by
      rw [Text.trimStart, List.dropWhile_append_of_pos hblank, hd, List.cons_append,
        List.dropWhile_cons_of_neg hnotBlank]
    rw [leading, hlead, List.takeWhile_append_of_pos hleadPart, List.takeWhile_append_of_pos hpart,
      part, Text.trim, htrim, trimEnd_append]
    · rfl
    · exact fun c hc => (isNameChar_iff.mp (hchar c hc)).2.1
  · rw [hlead, List.dropWhile_append_of_pos hleadPart, List.dropWhile_append_of_pos hpart]
  · rw [hlead]
    cases lead with
    | nil => exact ⟨d, _, by rw [hd]; rfl, hparen⟩
    | cons e lead =>
      refine ⟨e, _, rfl, ?_⟩
      rintro rfl
      exact absurd (hblank _ List.mem_cons_self) (by decide)

/-- A placeholder reads a name, where a loop that has the name finds it. -/
structure Reads (content name : String) : Prop where
  direct : Direct content
  starts : firstName content = name
  head : ∃ property, property? content = some property ∧
    (Path.ofText property).head.name = name ∧ (Path.ofText property).head.index = none

instance (content name : String) : Decidable (Reads content name) :=
  have : Decidable (∃ property, property? content = some property ∧
      (Path.ofText property).head.name = name ∧ (Path.ofText property).head.index = none) :=
    inferInstanceAs (Decidable (∃ property ∈ property? content, _))
  decidable_of_iff (Direct content ∧ firstName content = name ∧ _)
    ⟨fun h => ⟨h.1, h.2.1, h.2.2⟩, fun h => ⟨h.direct, h.starts, h.head⟩⟩

theorem PlainName.not_mem {name : String} (h : PlainName name) :
    '.' ∉ name.toList ∧ '[' ∉ name.toList := by
  constructor
  · exact fun hm => absurd (h.isNameChar _ hm) (by decide)
  · exact fun hm => absurd (h.isNameChar _ hm) (by decide)

/-- Another name in the place of the first one changes the root of the property, and nothing
else. -/
theorem Reads.renamed {name other content' : String} (h : Reads content name)
    (hname : PlainName name) (hother : PlainName other) (hfirst : firstName content' = other)
    (hafter : afterName content' = afterName content) :
    ∃ property property' tail, property? content = some property ∧
      property? content' = some property' ∧ Path.ofText property = ⟨⟨name, name, none⟩, tail⟩ ∧
      Path.ofText property' = ⟨⟨other, other, none⟩, tail⟩ := by
  obtain ⟨hleading, hoptions, c, s, hs, hc⟩ := leading_of_firstName hname h.starts
  obtain ⟨hleading', hoptions', c', s', hs', hc'⟩ := leading_of_firstName hother hfirst
  have hdirect' : Direct content' := by
    obtain ⟨found, hfound, hnone⟩ := h.direct
    rw [options, hoptions] at hfound
    obtain ⟨read, hread, hothers⟩ := readRest_ok hfound
    obtain ⟨found', hfound', hreadAgain⟩ := hothers content' []
    refine ⟨found', by rw [options, hoptions', hafter]; exact hfound', ?_⟩
    rw [hreadAgain "property", ← hnone, hread "property"]
  have hproperty := property?_eq_leading h.direct hc hs
  obtain ⟨property, hp, hroot, hindex⟩ := h.head
  obtain rfl := Option.some.inj (hproperty.symm.trans hp)
  rw [hleading] at hroot hindex hproperty
  have hr := Path.segments_eq_nil_of_head hname.not_mem.1 hname.not_mem.2
    (by rw [hroot, String.ofList_toList]) hindex
  have hpath := Path.ofText_append hname.not_mem.1 hname.not_mem.2 hr
  have hpath' := Path.ofText_append hother.not_mem.1 hother.not_mem.2 hr
  rw [String.ofList_toList] at hpath hpath'
  refine ⟨_, _, _, hproperty, ?_, hpath, hpath'⟩
  rw [property?_eq_leading hdirect' hc' hs', hleading', hafter]

end Placeholder

namespace Template

open Placeholder

namespace Loop

variable {name content : String} {n : Nat} {l : Loop}

def isElementName (name : String) : Bool :=
  "__frch_".toList.isPrefixOf name.toList

theorem toList_elementName (name : String) (n : Nat) :
    (elementName name n).toList =
      "__frch_".toList ++ (name.toList ++ '_' :: Nat.toDigits 10 n) := by
  simp [elementName]

theorem isElementName_elementName (name : String) (n : Nat) :
    isElementName (elementName name n) := by
  rw [isElementName, toList_elementName, List.isPrefixOf_iff_prefix]
  exact List.prefix_append _ _

theorem elementName_inj {name name' : String} {n n' : Nat} :
    elementName name n = elementName name' n' ↔ name = name' ∧ n = n' := by
  constructor
  · intro h
    have hlist := congrArg String.toList h
    rw [toList_elementName, toList_elementName] at hlist
    have hparts : name.toList ++ '_' :: Nat.toDigits 10 n =
        name'.toList ++ ['_'] ++ Nat.toDigits 10 n' := by
      simpa using List.append_cancel_left hlist
    -- No digit is an underscore, so the last one in the name stands before the number.
    obtain ⟨rest, hname, hdigits⟩ := in_first_of_not_mem hparts Nat.underscore_not_in_toDigits
    rcases List.eq_nil_or_concat rest with rfl | ⟨rest, c, rfl⟩
    · refine ⟨String.toList_injective (List.append_cancel_right hname).symm, ?_⟩
      have hnumber := congrArg (Nat.ofDigitChars 10 · 0) hdigits
      simpa [Nat.ofDigitChars_ten_toDigits] using hnumber
    · rw [List.concat_eq_append, ← List.cons_append, ← List.append_assoc] at hname
      obtain rfl : '_' = c := List.singleton_inj.mp (List.append_inj' hname rfl).2
      exact absurd (by rw [hdigits]; simp) (Nat.underscore_not_in_toDigits (n := n))
  · rintro ⟨rfl, rfl⟩
    rfl

theorem plainName_elementName (h : PlainName name) (n : Nat) : PlainName (elementName name n) := by
  constructor
  · intro hempty
    have hlist := congrArg String.toList hempty
    rw [toList_elementName] at hlist
    cases hlist
  · intro c hc
    rw [toList_elementName, List.mem_append, List.mem_append, List.mem_cons] at hc
    rcases hc with hc | hc | rfl | hc
    · exact List.all_eq_true.mp (by decide : "__frch_".toList.all isNameChar) c hc
    · exact h.isNameChar c hc
    · decide
    · exact isNameChar_of_isDigit (Nat.isDigit_of_mem_toDigits (by decide) (by decide) hc)

theorem renamed?_eq (hname : PlainName name) (replacement : String) :
    renamed? name replacement content =
      if firstName content = name then some (replacement ++ afterName content) else none := by
  have hstart := trimStart_eq_firstName_append content
  unfold renamed?
  split
  · rename_i hfirst
    rw [hfirst] at hstart
    rw [List.isPrefixOf?_eq_some_iff_append_eq.mpr hstart.symm]
    simp [endsName_head_afterName]
  · rename_i hfirst
    cases hrest : name.toList.isPrefixOf? (Text.trimStart content.toList) with
    | none => rfl
    | some rest =>
      have hends : ¬rest.head?.all endsName := by
        intro hends
        exact hfirst (firstName_eq hname (Text.eq_append_of_isPrefixOf? hrest) hends).1
      simp [hends]

/-- The names that a loop gives, the one for elements first. -/
def names (l : Loop) : List String :=
  l.item.toList ++ l.index.toList

/-- Placeholders know a name of the loop when they see it, and none of them is taken for a name
of an element. -/
def NamesPlainly (l : Loop) : Prop :=
  ∀ name ∈ l.names, PlainName name ∧ ¬isElementName name

instance (l : Loop) : Decidable l.NamesPlainly :=
  inferInstanceAs (Decidable (∀ name ∈ l.names, _))

theorem contentFor_of_plain (hl : ∀ name ∈ l.names, PlainName name) (n : Nat) (content : String) :
    l.contentFor n content =
      if firstName content ∈ l.names then elementName (firstName content) n ++ afterName content
      else content := by
  have hrenamed : ∀ name : Option String, (∀ name' ∈ name.toList, PlainName name') →
      (do
        let name ← name
        renamed? name (elementName name n) content) =
      if firstName content ∈ name.toList
      then some (elementName (firstName content) n ++ afterName content) else none := by
    intro name hname
    cases name with
    | none => rfl
    | some name =>
      simp only [Option.bind_eq_bind, Option.bind_some,
        renamed?_eq (hname name (by simp)), Option.toList_some, List.mem_singleton]
      split
      · rename_i hfirst
        rw [hfirst]
      · rfl
  unfold contentFor
  dsimp only
  rw [hrenamed l.item fun name hm => hl name (List.mem_append_left _ hm),
    hrenamed l.index fun name hm => hl name (List.mem_append_right _ hm)]
  simp only [names, List.mem_append]
  by_cases hitem : firstName content ∈ l.item.toList
  · simp [hitem]
  · by_cases hindex : firstName content ∈ l.index.toList
    · simp [hitem, hindex]
    · simp [hitem, hindex]

theorem contentFor_eq (hl : l.NamesPlainly) (n : Nat) (content : String) :
    l.contentFor n content =
      if firstName content ∈ l.names then elementName (firstName content) n ++ afterName content
      else content :=
  contentFor_of_plain (fun name hm => (hl name hm).1) n content

theorem elementName_append (hname : PlainName (firstName content)) (n : Nat) :
    firstName (elementName (firstName content) n ++ afterName content) =
        elementName (firstName content) n ∧
      afterName (elementName (firstName content) n ++ afterName content) = afterName content := by
  have hother := plainName_elementName hname n
  have hstart : Text.trimStart (elementName (firstName content) n ++ afterName content).toList =
      (elementName (firstName content) n).toList ++ (afterName content).toList := by
    rw [String.toList_append]
    obtain ⟨c, s, hc⟩ :=
      List.exists_cons_of_ne_nil (mt String.toList_eq_nil_iff.mp hother.ne_empty)
    have hblank := (isNameChar_iff.mp (hother.isNameChar c (hc ▸ List.mem_cons_self))).2.1
    rw [hc, List.cons_append, Text.trimStart, List.dropWhile_cons_of_neg hblank]
  obtain ⟨hfirst, hafter⟩ := firstName_eq hother hstart (endsName_head_afterName content)
  exact ⟨hfirst, by rw [hafter, String.ofList_toList]⟩

theorem contentFor_cases (l : Loop) (n : Nat) (content : String) :
    l.contentFor n content = content ∨ ∃ name ∈ l.names,
      renamed? name (elementName name n) content = some (l.contentFor n content) := by
  unfold contentFor names
  dsimp only
  cases hitem : (do
      let name ← l.item
      renamed? name (elementName name n) content) with
  | some renamed =>
    obtain ⟨name, hname, hrenamed⟩ := Option.bind_eq_some_iff.mp hitem
    exact .inr ⟨name, by simp [hname], hrenamed⟩
  | none =>
    cases hindex : (do
        let name ← l.index
        renamed? name (elementName name n) content) with
    | some renamed =>
      obtain ⟨name, hname, hrenamed⟩ := Option.bind_eq_some_iff.mp hindex
      exact .inr ⟨name, by simp [hname], hrenamed⟩
    | none => exact .inl rfl

theorem contentFor_rest (l : Loop) (n : Nat) (content : String) :
    l.contentFor n content = content ∨ ∃ name rest,
      Text.trimStart content.toList = name.toList ++ rest ∧
        (l.contentFor n content).toList = (elementName name n).toList ++ rest := by
  refine (l.contentFor_cases n content).imp_right fun ⟨name, _, hrenamed⟩ => ?_
  obtain ⟨rest, hrest, h⟩ := Option.bind_eq_some_iff.mp hrenamed
  refine ⟨name, rest, Text.eq_append_of_isPrefixOf? hrest, ?_⟩
  split at h
  · rw [← Option.some.inj h, String.toList_append, String.toList_ofList]
  · cases h

/-- A new name brings no closing delimiter into a content, and takes none out of it. -/
theorem closing_mem_contentFor (l : Loop) (n : Nat) (content : String) :
    '}' ∈ (l.contentFor n content).toList ↔ '}' ∈ content.toList := by
  rcases l.contentFor_rest n content with hsame | ⟨name, rest, hstart, hnew⟩
  · rw [hsame]
  · have hdigits : '}' ∉ Nat.toDigits 10 n := fun hm =>
      absurd (Nat.isDigit_of_mem_toDigits (by decide) (by decide) hm) (by decide)
    have hblank : '}' ∉ content.toList.takeWhile Text.isBlank := fun hm =>
      absurd (List.mem_takeWhile_imp hm) (by decide)
    rw [Text.trimStart] at hstart
    rw [hnew, toList_elementName,
      ← List.takeWhile_append_dropWhile (p := Text.isBlank) (l := content.toList), hstart]
    simp [hblank, hdigits]

theorem getLast?_contentFor (h : content.toList.getLast? ≠ some '\\') (n : Nat) :
    (l.contentFor n content).toList.getLast? ≠ some '\\' := by
  rcases l.contentFor_rest n content with hsame | ⟨name, rest, hstart, hnew⟩
  · rwa [hsame]
  · have hsuffix : rest <:+ content.toList :=
      (List.suffix_append name.toList rest).trans (hstart ▸ List.dropWhile_suffix _)
    have hdigits : Nat.toDigits 10 n ≠ [] := Nat.toDigits_ne_nil
    rw [hnew]
    refine Text.getLast?_append_ne ?_ ?_
    · rw [toList_elementName, List.getLast?_append_of_ne_nil _ (by simp),
        List.getLast?_append_of_ne_nil _ (by simp), List.getLast?_cons_of_ne_nil hdigits]
      intro hlast
      exact absurd (Nat.isDigit_of_mem_toDigits (by decide) (by decide)
        (List.mem_of_getLast? hlast)) (by decide)
    · obtain ⟨before, hbefore⟩ := hsuffix
      rw [← hbefore] at h
      cases rest with
      | nil => simp
      | cons c rest => rwa [List.getLast?_append_cons] at h

theorem plainContent_contentFor (l : Loop) (n : Nat) (h : PlainContent content) :
    PlainContent (l.contentFor n content) :=
  ⟨mt (l.closing_mem_contentFor n content).mp h.1, getLast?_contentFor h.2 n⟩

end Loop

end Template

end MappedSql
