import MappedSql.Proofs.Trimming
import MappedSql.Proofs.WrittenPlaceholders

/-!
# Printing placeholders

A property, a driver type and options are printed with the marks between them and any spaces around
them, and are read back as they were: under the same names, in the same order, with the same texts.
-/

namespace MappedSql

namespace Placeholder

structure Printed where
  before : List Char := []
  text : List Char
  after : List Char := []

namespace Printed

def chars (p : Printed) : List Char :=
  p.before ++ p.text ++ p.after

/-- Around the text are spaces that are also blank, and the text has no blanks at its ends, and no
control characters. -/
structure Clean (p : Printed) : Prop where
  around : ∀ c ∈ p.before ++ p.after, isSpace c ∧ Text.isBlank c
  trimmed : Text.trim p.text = p.text
  printable : ∀ c ∈ p.text, ' ' ≤ c

instance (p : Printed) : Decidable p.Clean :=
  decidable_of_iff ((p.before ++ p.after).all (fun c => isSpace c && Text.isBlank c) ∧
      Text.trim p.text = p.text ∧ p.text.all (' ' ≤ ·))
    (by simp only [List.all_eq_true, Bool.and_eq_true, decide_eq_true_eq]
        exact ⟨fun ⟨h₁, h₂, h₃⟩ => ⟨h₁, h₂, h₃⟩, fun h => ⟨h.around, h.trimmed, h.printable⟩⟩)

variable {p : Printed}

theorem Clean.part_chars (h : p.Clean) : part p.chars = String.ofList p.text := by
  obtain ⟨hbefore, hafter⟩ := List.forall_mem_append.mp h.around
  rw [chars, part, Text.trim_padded (fun c hc => (hbefore c hc).2) (fun c hc => (hafter c hc).2)
    h.trimmed]

theorem Clean.skipSpaces_chars (h : p.Clean) (hne : p.text ≠ []) :
    skipSpaces p.chars = p.text ++ p.after := by
  obtain ⟨hbefore, -⟩ := List.forall_mem_append.mp h.around
  obtain ⟨c, rest, htext⟩ := List.exists_cons_of_ne_nil hne
  have hspace : isSpace c = false := by
    have hprintable := h.printable c (by simp [htext])
    have hblank : Text.isBlank c = false := by
      apply Text.head_trim p.text
      rw [h.trimmed, htext]
      rfl
    simp only [isSpace, decide_eq_false_iff_not]
    intro hle
    rw [Char.le_antisymm hle hprintable] at hblank
    cases hblank
  rw [chars, List.append_assoc, skipSpaces,
    List.dropWhile_append_of_pos fun c hc => (hbefore c hc).1, htext]
  simp [hspace]

theorem Clean.part_skipSpaces (h : p.Clean) (hne : p.text ≠ []) :
    part (skipSpaces p.chars) = String.ofList p.text := by
  obtain ⟨-, hafter⟩ := List.forall_mem_append.mp h.around
  rw [h.skipSpaces_chars hne, part, Text.trim_append_right_of_blank fun c hc => (hafter c hc).2,
    h.trimmed]

theorem Clean.forall_chars {P : Char → Prop} (h : p.Clean) (hspace : ∀ c, isSpace c → P c)
    (htext : ∀ c ∈ p.text, P c) : ∀ c ∈ p.chars, P c := by
  obtain ⟨hbefore, hafter⟩ := List.forall_mem_append.mp h.around
  simp only [chars, List.forall_mem_append]
  exact ⟨⟨fun c hc => hspace c (hbefore c hc).1, htext⟩, fun c hc => hspace c (hafter c hc).1⟩

theorem Clean.not_mem_chars {mark : Char} (h : p.Clean) (hmark : isSpace mark = false)
    (htext : mark ∉ p.text) : mark ∉ p.chars := by
  intro hm
  refine h.forall_chars (P := (· ≠ mark)) (fun c hc => ?_) (fun c hc => ?_) mark hm rfl
  · simpa using space_ne mark hmark hc
  · rintro rfl
    exact htext hc

end Printed

structure Layout where
  property : Printed
  type : Option Printed := none
  options : List (Printed × Printed) := []

namespace Layout

/-- The parts in a row: a colon before the driver type, a comma before every option, and an equals
sign between its name and its value. -/
def content (l : Layout) : String :=
  String.ofList (l.property.chars ++ (l.type.map fun type => ':' :: type.chars).getD [] ++
    l.options.flatMap fun (name, value) => ',' :: name.chars ++ '=' :: value.chars)

def parts (l : Layout) : Parts :=
  ("property", String.ofList l.property.text) ::
    (l.type.map fun type => ("jdbcType", String.ofList type.text)).toList ++
    l.options.map fun (name, value) => (String.ofList name.text, String.ofList value.text)

def written (l : Layout) : Written where
  property := l.property.chars
  type := l.type.map Printed.chars
  options := l.options.map fun (name, value) => ⟨name.chars, value.chars⟩

/-- No text holds the mark that would end it, none but a value is empty, and no name comes twice. -/
structure Faithful (l : Layout) : Prop where
  property : l.property.Clean ∧ l.property.text ≠ [] ∧ ∀ c ∈ l.property.text, isNamePart c
  start : l.property.text.head? ≠ some '('
  type : ∀ type ∈ l.type, type.Clean ∧ type.text ≠ [] ∧ ',' ∉ type.text
  name : ∀ o ∈ l.options, o.1.Clean ∧ o.1.text ≠ [] ∧ '=' ∉ o.1.text
  value : ∀ o ∈ l.options, o.2.Clean ∧ ',' ∉ o.2.text
  distinct : (l.parts.map (·.1)).Nodup

instance (l : Layout) : Decidable l.Faithful :=
  decidable_of_iff
    ((l.property.Clean ∧ l.property.text ≠ [] ∧ l.property.text.all isNamePart) ∧
      l.property.text.head? ≠ some '(' ∧
      (∀ type ∈ l.type, type.Clean ∧ type.text ≠ [] ∧ ',' ∉ type.text) ∧
      (∀ o ∈ l.options, o.1.Clean ∧ o.1.text ≠ [] ∧ '=' ∉ o.1.text) ∧
      (∀ o ∈ l.options, o.2.Clean ∧ ',' ∉ o.2.text) ∧ (l.parts.map (·.1)).Nodup)
    (by rw [List.all_eq_true]
        exact ⟨fun ⟨h₁, h₂, h₃, h₄, h₅, h₆⟩ => ⟨h₁, h₂, h₃, h₄, h₅, h₆⟩,
          fun h => ⟨h.property, h.start, h.type, h.name, h.value, h.distinct⟩⟩)

variable {l : Layout}

theorem content_written (l : Layout) : l.written.content = l.content := by
  simp [content, written, Written.content, Written.tail, Written.listed, WrittenOption.text,
    List.flatMap_map, Option.map_map, Function.comp_def]

theorem Faithful.separated (h : l.Faithful) : l.written.Separated where
  property := by
    obtain ⟨hclean, -, htext⟩ := h.property
    exact hclean.forall_chars (fun c hc => isNamePart_of_isSpace hc) htext
  start := by
    obtain ⟨hclean, hne, -⟩ := h.property
    change (skipSpaces l.property.chars).head? ≠ _
    rw [hclean.skipSpaces_chars hne, List.head?_append_of_ne_nil _ hne]
    exact h.start
  type := by
    intro type htype
    obtain ⟨p, hp, rfl⟩ := Option.map_eq_some_iff.mp htype
    obtain ⟨hclean, hne, hcomma⟩ := h.type p hp
    refine ⟨hclean.not_mem_chars rfl hcomma, ?_⟩
    rw [hclean.skipSpaces_chars hne]
    simp [hne]
  options := by
    intro o ho
    obtain ⟨⟨name, value⟩, hmem, rfl⟩ := List.mem_map.mp ho
    obtain ⟨hname, -, hsign⟩ := h.name _ hmem
    obtain ⟨hvalue, hcomma⟩ := h.value _ hmem
    exact ⟨hname.not_mem_chars rfl hsign, hvalue.not_mem_chars rfl hcomma⟩
  ending := nofun

theorem Faithful.namesProperty (h : l.Faithful) : NamesProperty l.content := by
  obtain ⟨hclean, hne, -⟩ := h.property
  obtain ⟨c, rest, htext⟩ := List.exists_cons_of_ne_nil hne
  have hskip : skipSpaces l.content.toList =
      c :: (rest ++ l.property.after ++ l.written.tail) := by
    rw [← content_written, skipSpaces_content]
    change skipSpaces l.property.chars ++ _ = _
    rw [hclean.skipSpaces_chars hne, htext]
    simp
  refine namesProperty_iff.mpr ⟨c, _, hskip, ?_⟩
  rintro rfl
  exact h.start (by simp [htext])

theorem Faithful.entries (h : l.Faithful) : l.written.entries = l.parts := by
  obtain ⟨hclean, hne, -⟩ := h.property
  have hleading : l.written.leading = String.ofList l.property.text := hclean.part_skipSpaces hne
  have htype : l.written.driverType?.map ("jdbcType", ·) =
      l.type.map fun type => ("jdbcType", String.ofList type.text) := by
    cases hl : l.type with
    | none => simp [Written.driverType?, written, hl]
    | some type =>
      obtain ⟨htype, htext, -⟩ := h.type type hl
      simp [Written.driverType?, written, hl, htype.part_skipSpaces htext]
  have hoptions : l.written.options.map WrittenOption.entry =
      l.options.map fun (name, value) => (String.ofList name.text, String.ofList value.text) := by
    rw [written, List.map_map]
    apply List.map_congr_left
    intro o ho
    obtain ⟨hname, htext, -⟩ := h.name o ho
    obtain ⟨hvalue, -⟩ := h.value o ho
    simp [WrittenOption.entry, hname.part_skipSpaces htext, hvalue.part_chars]
  rw [Written.entries, hleading, htype, hoptions, parts]

end Layout

/-- What is printed is read as it was, with every part under its name and in its place. -/
theorem layouts_read_back (l : Layout) (h : l.Faithful) : parts l.content = .ok l.parts := by
  have hstart := h.namesProperty
  rw [← Layout.content_written] at hstart ⊢
  rw [parts_content h.separated hstart, h.entries, collect_of_nodup h.distinct]

def crowded : Layout where
  property := { before := [' '], text := "größe (in cm)=".toList, after := [' ', ' '] }
  type := some { before := [' '], text := "NUMERIC(5: 2)".toList }
  options :=
    [({ before := [' '], text := "mode, scale".toList, after := [' '] },
        { before := [' ', ' '], text := "a=b:(ç))".toList, after := [' '] }),
      ({ text := "resultMap".toList }, { text := [], after := [' '] })]

theorem crowded_reads_back :
    crowded.Faithful ∧
    crowded.content = " größe (in cm)=  : NUMERIC(5: 2), mode, scale =  a=b:(ç)) ,resultMap= " ∧
    parts crowded.content = .ok
      [("property", "größe (in cm)="), ("jdbcType", "NUMERIC(5: 2)"), ("mode, scale", "a=b:(ç))"),
        ("resultMap", "")] := by
  have h : crowded.Faithful := by decide +kernel
  exact ⟨h, by decide +kernel, layouts_read_back crowded h⟩

end Placeholder

end MappedSql
