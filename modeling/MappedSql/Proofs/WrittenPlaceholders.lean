import MappedSql.Proofs.BoundedStores
import MappedSql.Proofs.Renaming

/-!
# Placeholders as they are written

The content of a placeholder that names a property is put together from pieces: a segment for the
property, a driver type after a colon, and options after commas. Whatever can be read is of this
form, and what is read are the texts of the pieces, under their names, where the last of a name
counts.

Every piece ends where the next one begins: an equals sign ends the name of an option, a comma its
value. The induction over the options needs no more of what follows them than that it starts with a
comma, if there is anything.
-/

namespace MappedSql

namespace Text

theorem span_append {p : Char → Bool} {s t : List Char} (hs : ∀ c ∈ s, p c)
    (ht : ∀ c ∈ t.head?, p c = false) :
    (s ++ t).takeWhile p = s ∧ (s ++ t).dropWhile p = t := by
  rw [List.takeWhile_append_of_pos hs, List.dropWhile_append_of_pos hs]
  cases t with
  | nil => simp
  | cons c t => simp [ht c rfl]

end Text

namespace Placeholder

-- ---------------------------------------------------------------------------
-- Pieces
-- ---------------------------------------------------------------------------

/-- An option as it is written: what stands before its equals sign, and after it. -/
structure WrittenOption where
  name : List Char
  value : List Char

namespace WrittenOption

def text (o : WrittenOption) : List Char :=
  o.name ++ '=' :: o.value

/-- What is read from an option. -/
def entry (o : WrittenOption) : String × String :=
  (part (skipSpaces o.name), part o.value)

/-- Its name ends at the equals sign, and its value at the next comma. -/
def Separated (o : WrittenOption) : Prop :=
  '=' ∉ o.name ∧ ',' ∉ o.value

instance (o : WrittenOption) : Decidable o.Separated :=
  inferInstanceAs (Decidable (_ ∧ _))

end WrittenOption

/-- The content of a placeholder in pieces. A comma may be left at the end, with nothing but spaces
after it. -/
structure Written where
  property : List Char
  type : Option (List Char) := none
  options : List WrittenOption := []
  ending : Option (List Char) := none

namespace Written

def listed (options : List WrittenOption) (ending : Option (List Char)) : List Char :=
  options.flatMap (',' :: ·.text) ++ (ending.map (',' :: ·)).getD []

def tail (w : Written) : List Char :=
  (w.type.map (':' :: ·)).getD [] ++ listed w.options w.ending

def content (w : Written) : String :=
  String.ofList (w.property ++ w.tail)

def leading (w : Written) : String :=
  part (skipSpaces w.property)

def driverType? (w : Written) : Option String :=
  w.type.map fun type => part (skipSpaces type)

def entries (w : Written) : List (String × String) :=
  ("property", w.leading) :: (w.driverType?.map ("jdbcType", ·)).toList ++
    w.options.map WrittenOption.entry

/-- Every piece ends where the next one begins, and the first one is no expression. -/
structure Separated (w : Written) : Prop where
  property : ∀ c ∈ w.property, isNamePart c
  start : (skipSpaces w.property).head? ≠ some '('
  type : ∀ type ∈ w.type, ',' ∉ type ∧ skipSpaces type ≠ []
  options : ∀ o ∈ w.options, o.Separated
  ending : ∀ ending ∈ w.ending, ∀ c ∈ ending, isSpace c

instance (w : Written) : Decidable w.Separated :=
  decidable_of_iff (w.property.all isNamePart ∧ (skipSpaces w.property).head? ≠ some '(' ∧
      (∀ type ∈ w.type, ',' ∉ type ∧ skipSpaces type ≠ []) ∧ (∀ o ∈ w.options, o.Separated) ∧
      ∀ ending ∈ w.ending, ending.all isSpace)
    ⟨fun ⟨h₁, h₂, h₃, h₄, h₅⟩ =>
        ⟨List.all_eq_true.mp h₁, h₂, h₃, h₄, fun e he => List.all_eq_true.mp (h₅ e he)⟩,
      fun h => ⟨List.all_eq_true.mpr h.property, h.start, h.type, h.options,
        fun e he => List.all_eq_true.mpr (h.ending e he)⟩⟩

end Written

/-- Parts under their names. The last text of a name counts, in the place of the first. -/
def collect (entries : List (String × String)) : Parts :=
  entries.foldl (fun parts entry => Keyed.put parts entry.1 entry.2) []

theorem foldl_put_of_nodup {entries : List (String × String)} (ps : Parts)
    (h : ((ps ++ entries).map (·.1)).Nodup) :
    entries.foldl (fun ps entry => Keyed.put ps entry.1 entry.2) ps = ps ++ entries := by
  induction entries generalizing ps with
  | nil => simp
  | cons entry rest ih =>
    obtain ⟨name, value⟩ := entry
    have hnew : name ∉ ps.map (·.1) := by
      simp only [List.map_append, List.map_cons, List.nodup_append] at h
      intro hm
      exact h.2.2 name hm name List.mem_cons_self rfl
    rw [List.foldl_cons, Keyed.put_of_not_mem hnew, ih _ (by simpa using h)]
    simp

theorem collect_of_nodup {entries : List (String × String)} (h : (entries.map (·.1)).Nodup) :
    collect entries = entries :=
  (foldl_put_of_nodup [] h).trans (List.nil_append _)

/-- The content is not blank, and does not start with an expression. -/
def NamesProperty (content : String) : Prop :=
  (skipSpaces content.toList).head?.any (· ≠ '(')

instance (content : String) : Decidable (NamesProperty content) :=
  inferInstanceAs (Decidable (_ = true))

theorem namesProperty_iff {content : String} : NamesProperty content ↔
    ∃ c rest, skipSpaces content.toList = c :: rest ∧ c ≠ '(' := by
  unfold NamesProperty
  cases skipSpaces content.toList with
  | nil => simp
  | cons c rest => simp

-- ---------------------------------------------------------------------------
-- Reading pieces
-- ---------------------------------------------------------------------------

section
variable {content : String} {ps found : Parts} {s t : List Char} {options : List WrittenOption}
  {ending : Option (List Char)} {w : Written}

theorem skipSpaces_append (s : List Char) (ht : ∀ c ∈ t.head?, isSpace c = false) :
    skipSpaces (s ++ t) = skipSpaces s ++ t := by
  have hstop : skipSpaces t = t := by
    cases t with
    | nil => rfl
    | cons c t => simp [skipSpaces, ht c rfl]
  rw [skipSpaces, List.dropWhile_append]
  split
  · rename_i hempty
    rw [List.isEmpty_iff] at hempty
    simpa [skipSpaces, hempty] using hstop
  · rfl

theorem readOptions_spaces (h : skipSpaces s = []) : readOptions ps s = .ok ps := by
  rw [readOptions]
  split
  · rfl
  · simp_all

theorem readOptions_option {o : WrittenOption} (ho : o.Separated) (ht : ∀ c ∈ t.head?, c = ',') :
    readOptions ps (o.text ++ t) =
      readOptions (Keyed.put ps o.entry.1 o.entry.2) (t.drop 1) := by
  obtain ⟨hname, hvalue⟩ := ho
  have hskip : skipSpaces (o.text ++ t) = skipSpaces o.name ++ '=' :: (o.value ++ t) := by
    rw [WrittenOption.text, List.append_assoc, skipSpaces_append]
    · rfl
    · rintro c ⟨⟩
      rfl
  have hsign := Text.span_append (p := (· != '=')) (s := skipSpaces o.name)
    (t := '=' :: (o.value ++ t)) (fun c hc => by
      have hmem : c ∈ o.name := (List.dropWhile_sublist _).subset hc
      simpa using fun heq : c = '=' => hname (heq ▸ hmem)) (by simp)
  have hcomma := Text.span_append (p := (· != ',')) (s := o.value) (t := t) (fun c hc => by
      simpa using fun heq : c = ',' => hvalue (heq ▸ hc)) (fun c hc => by simp [ht c hc])
  rw [readOptions]
  split
  · simp_all
  · rename_i hs
    rw [hskip] at hs
    rw [← hs, hsign.2]
    dsimp only
    rw [hsign.1, hcomma.1, hcomma.2]
    rfl

theorem head_listed (options : List WrittenOption) (ending : Option (List Char)) :
    ∀ c ∈ (Written.listed options ending).head?, c = ',' := by
  cases options with
  | nil => cases ending <;> simp [Written.listed]
  | cons o rest => simp [Written.listed]

theorem readOptions_listed (hoptions : ∀ o ∈ options, o.Separated)
    (hending : ∀ e ∈ ending, ∀ c ∈ e, isSpace c) (ps : Parts) :
    readOptions ps ((Written.listed options ending).drop 1) =
      .ok ((options.map WrittenOption.entry).foldl (fun ps e => Keyed.put ps e.1 e.2) ps) := by
  induction options generalizing ps with
  | nil =>
    apply readOptions_spaces
    cases ending with
    | none => rfl
    | some e => simpa [Written.listed, skipSpaces] using hending e rfl
  | cons o rest ih =>
    obtain ⟨ho, hrest⟩ := List.forall_mem_cons.mp hoptions
    have hlisted : (Written.listed (o :: rest) ending).drop 1 =
        o.text ++ Written.listed rest ending := by
      simp [Written.listed]
    rw [hlisted, readOptions_option ho (head_listed rest ending), ih hrest]
    rfl

theorem readRest_type (hne : (skipSpaces s).takeWhile (· != ',') ≠ []) :
    readRest content ps (':' :: s) =
      readOptions (Keyed.put ps "jdbcType" (part ((skipSpaces s).takeWhile (· != ','))))
        (((skipSpaces s).dropWhile (· != ',')).drop 1) := by
  have hmark : skipSpaces (':' :: s) = ':' :: s := rfl
  simp only [readRest, hmark]

theorem type_ne_of_readRest (h : readRest content ps (':' :: s) = .ok found) :
    (skipSpaces s).takeWhile (· != ',') ≠ [] := by
  intro hempty
  have hmark : skipSpaces (':' :: s) = ':' :: s := rfl
  simp only [readRest, hmark, hempty] at h
  cases h

theorem readRest_listed (content : String) (ps : Parts) (options : List WrittenOption)
    (ending : Option (List Char)) : readRest content ps (Written.listed options ending) =
      readOptions ps ((Written.listed options ending).drop 1) := by
  cases hrest : Written.listed options ending with
  | nil => exact (readOptions_spaces rfl).symm
  | cons c rest =>
    obtain rfl : c = ',' := head_listed options ending c (by simp [hrest])
    rfl

theorem readRest_typed {type : List Char} (hcomma : ',' ∉ type) (hne : skipSpaces type ≠ [])
    (content : String) (ps : Parts) (options : List WrittenOption) (ending : Option (List Char)) :
    readRest content ps (':' :: (type ++ Written.listed options ending)) =
      readOptions (Keyed.put ps "jdbcType" (part (skipSpaces type)))
        ((Written.listed options ending).drop 1) := by
  have hskip : skipSpaces (type ++ Written.listed options ending) =
      skipSpaces type ++ Written.listed options ending := by
    apply skipSpaces_append
    intro c hc
    rw [head_listed options ending c hc]
    rfl
  have hspan := Text.span_append (p := (· != ',')) (s := skipSpaces type)
    (t := Written.listed options ending) (fun c hc => by
      have hmem : c ∈ type := (List.dropWhile_sublist _).subset hc
      simpa using fun heq : c = ',' => hcomma (heq ▸ hmem))
    (fun c hc => by simp [head_listed options ending c hc])
  rw [← hskip] at hspan
  rw [readRest_type (hspan.1.symm ▸ hne), hspan.1, hspan.2]

theorem readRest_tail (h : w.Separated) (content : String) (ps : Parts) :
    readRest content ps w.tail =
      .ok (((w.driverType?.map ("jdbcType", ·)).toList ++ w.options.map WrittenOption.entry).foldl
        (fun ps e => Keyed.put ps e.1 e.2) ps) := by
  have hlisted := readOptions_listed h.options h.ending
  cases htype : w.type with
  | none =>
    have htail : w.tail = Written.listed w.options w.ending := by simp [Written.tail, htype]
    rw [htail, readRest_listed, hlisted]
    simp [Written.driverType?, htype]
  | some type =>
    obtain ⟨hcomma, hne⟩ := h.type type htype
    have htail : w.tail = ':' :: (type ++ Written.listed w.options w.ending) := by
      simp [Written.tail, htype]
    rw [htail, readRest_typed hcomma hne, hlisted]
    simp [Written.driverType?, htype]

theorem head_tail (w : Written) : ∀ c ∈ w.tail.head?, isNamePart c = false ∧ isSpace c = false := by
  have hmarks : ∀ c, c = ':' ∨ c = ',' → isNamePart c = false ∧ isSpace c = false := by
    rintro c (rfl | rfl)
    · decide
    · decide
  intro c hc
  apply hmarks
  cases htype : w.type with
  | none =>
    rw [Written.tail, htype] at hc
    exact .inr (head_listed w.options w.ending c hc)
  | some type =>
    have hcolon : ':' = c := by simpa [Written.tail, htype] using hc
    exact .inl hcolon.symm

theorem skipSpaces_content (w : Written) :
    skipSpaces w.content.toList = skipSpaces w.property ++ w.tail := by
  rw [Written.content, String.toList_ofList]
  exact skipSpaces_append _ fun c hc => (head_tail w c hc).2

theorem parts_of_namesProperty (hstart : NamesProperty content) : parts content =
    readRest content [("property", part ((skipSpaces content.toList).takeWhile isNamePart))]
      ((skipSpaces content.toList).dropWhile isNamePart) := by
  obtain ⟨c, s, hs, hparen⟩ := namesProperty_iff.mp hstart
  rw [parts, hs]
  split
  · rename_i heq
    cases heq
  · rename_i heq
    cases heq
    exact absurd rfl hparen
  · rfl

/-- What is read are the texts of the pieces, under their names. -/
theorem parts_content (h : w.Separated) (hstart : NamesProperty w.content) :
    parts w.content = .ok (collect w.entries) := by
  have hspan := Text.span_append (p := isNamePart) (s := skipSpaces w.property) (t := w.tail)
    (fun d hd => h.property d ((List.dropWhile_sublist _).subset hd))
    (fun d hd => (head_tail w d hd).1)
  rw [← skipSpaces_content] at hspan
  rw [parts_of_namesProperty hstart, hspan.1, hspan.2, readRest_tail h]
  rfl

-- ---------------------------------------------------------------------------
-- Everything that is read is written so
-- ---------------------------------------------------------------------------

/-- Spaces before a piece belong to it, for what ends it is no space. -/
theorem takeWhile_skipSpaces {p : Char → Bool} (hp : ∀ c, isSpace c → p c) (s : List Char) :
    (skipSpaces s).takeWhile p = skipSpaces (s.takeWhile p) ∧
      (skipSpaces s).dropWhile p = s.dropWhile p := by
  induction s with
  | nil => exact ⟨rfl, rfl⟩
  | cons c rest ih =>
    by_cases hspace : isSpace c
    · simpa [skipSpaces, hspace, hp c hspace] using ih
    · by_cases hc : p c
      · simp [skipSpaces, hspace, hc]
      · simp [skipSpaces, hspace, hc]

theorem space_ne {c : Char} (mark : Char) (hmark : isSpace mark = false) (hc : isSpace c) :
    c != mark := by
  rw [bne_iff_ne]
  rintro rfl
  rw [hmark] at hc
  cases hc

theorem isNamePart_of_isSpace {c : Char} (hc : isSpace c) : isNamePart c := by
  simp [isNamePart, space_ne ',' rfl hc, space_ne ':' rfl hc]

theorem not_mem_takeWhile (mark : Char) (s : List Char) : mark ∉ s.takeWhile (· != mark) := by
  intro h
  simpa using List.mem_takeWhile_imp h

/-- A text is a list of options, with a comma before each. -/
def Listed (s : List Char) : Prop :=
  ∃ options ending, s = Written.listed options ending ∧ (∀ o ∈ options, o.Separated) ∧
    ∀ e ∈ ending, ∀ c ∈ e, isSpace c

theorem listed_nil : Listed [] :=
  ⟨[], none, rfl, by simp, by simp⟩

theorem listed_spaces (h : skipSpaces s = []) : Listed (',' :: s) := by
  refine ⟨[], some s, by simp [Written.listed], by simp, ?_⟩
  rintro _ ⟨⟩
  exact List.dropWhile_eq_nil_iff.mp h

theorem Listed.cons {o : WrittenOption} (ho : o.Separated) (h : Listed t) :
    Listed (',' :: (o.text ++ t)) := by
  obtain ⟨options, ending, rfl, hoptions, hending⟩ := h
  refine ⟨o :: options, ending, ?_, List.forall_mem_cons.mpr ⟨ho, hoptions⟩, hending⟩
  simp [Written.listed]

theorem dropWhile_ne_cases (mark : Char) (s : List Char) :
    s.dropWhile (· != mark) = [] ∨ ∃ after, s.dropWhile (· != mark) = mark :: after := by
  have hstop := List.head?_dropWhile_not (· != mark) s
  cases hs : s.dropWhile (· != mark) with
  | nil => exact .inl rfl
  | cons c after =>
    obtain rfl : c = mark := by simpa [hs] using hstop
    exact .inr ⟨after, rfl⟩

theorem Listed.next (h : Listed (',' :: (s.dropWhile (· != ',')).drop 1)) :
    Listed (s.dropWhile (· != ',')) := by
  rcases dropWhile_ne_cases ',' s with hnone | ⟨after, hafter⟩
  · rw [hnone]
    exact listed_nil
  · rw [hafter] at h ⊢
    exact h

theorem listed_of_readOptions (h : readOptions ps s = .ok found) : Listed (',' :: s) := by
  fun_induction readOptions ps s with
  | case1 ps s hs => exact listed_spaces hs
  | case2 => cases h
  | case3 ps s c rest hs sign afterSign hsign name value ih =>
    rw [← hs, (takeWhile_skipSpaces (fun c hc => space_ne '=' rfl hc) s).2] at hsign
    obtain rfl : sign = '=' := by
      have hstop := List.head?_dropWhile_not (· != '=') s
      simpa [hsign] using hstop
    let o : WrittenOption := ⟨s.takeWhile (· != '='), afterSign.takeWhile (· != ',')⟩
    have ho : o.Separated := ⟨not_mem_takeWhile '=' s, not_mem_takeWhile ',' afterSign⟩
    have hsplit : o.text ++ afterSign.dropWhile (· != ',') = s := by
      simp only [o, WrittenOption.text, List.append_assoc, List.cons_append,
        List.takeWhile_append_dropWhile]
      rw [← hsign, List.takeWhile_append_dropWhile]
    have hlisted := (ih h).next.cons ho
    rwa [hsplit] at hlisted

theorem exists_tail (hs : ∀ c ∈ s.head?, isNamePart c = false)
    (h : readRest content ps s = .ok found) :
    ∃ (type : Option (List Char)) (t : List Char), s = (type.map (':' :: ·)).getD [] ++ t ∧
      (∀ t ∈ type, ',' ∉ t ∧ skipSpaces t ≠ []) ∧ Listed t := by
  cases s with
  | nil => exact ⟨none, [], rfl, by simp, listed_nil⟩
  | cons c rest =>
    have hmark : c = ',' ∨ c = ':' := by
      have hc := hs c rfl
      simp only [isNamePart, Bool.and_eq_false_iff, bne_eq_false_iff_eq] at hc
      exact hc
    rcases hmark with rfl | rfl
    · exact ⟨none, ',' :: rest, rfl, by simp, listed_of_readOptions (s := rest) h⟩
    · obtain ⟨htake, hdrop⟩ := takeWhile_skipSpaces (fun c hc => space_ne ',' rfl hc) rest
      have htext := type_ne_of_readRest h
      rw [readRest_type htext, hdrop] at h
      refine ⟨some (rest.takeWhile (· != ',')), rest.dropWhile (· != ','), ?_, ?_,
        (listed_of_readOptions h).next⟩
      · simp [List.takeWhile_append_dropWhile]
      · rintro _ ⟨⟩
        exact ⟨not_mem_takeWhile ',' rest, htake ▸ htext⟩

/-- A placeholder that names a property can only be read when it is written in pieces. -/
theorem exists_written (hstart : NamesProperty content) (h : parts content = .ok ps) :
    ∃ w : Written, w.Separated ∧ w.content = content := by
  obtain ⟨htake, hdrop⟩ :=
    takeWhile_skipSpaces (fun c hc => isNamePart_of_isSpace hc) content.toList
  rw [parts_of_namesProperty hstart, hdrop] at h
  obtain ⟨type, _, htail, htype, options, ending, rfl, hoptions, hending⟩ :=
    exists_tail (fun c hc => by
      have hstop := List.head?_dropWhile_not isNamePart content.toList
      rw [Option.mem_def.mp hc] at hstop
      simpa using hstop) h
  let w : Written := ⟨content.toList.takeWhile isNamePart, type, options, ending⟩
  have hhead : (skipSpaces w.property).head? ≠ some '(' := by
    obtain ⟨c, rest, hs, hparen⟩ := namesProperty_iff.mp hstart
    change (skipSpaces (content.toList.takeWhile isNamePart)).head? ≠ _
    rw [← htake, hs, List.takeWhile_cons]
    split
    · simpa using hparen
    · simp
  refine ⟨w, ⟨fun c hc => List.mem_takeWhile_imp hc, hhead, htype, hoptions, hending⟩, ?_⟩
  rw [Written.content, Written.tail, ← htail, List.takeWhile_append_dropWhile,
    String.ofList_toList]

end

end Placeholder

end MappedSql
