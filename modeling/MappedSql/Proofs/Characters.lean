import MappedSql.Proofs.Renaming
import MappedSql.Proofs.Spans
import MappedSql.Proofs.Trimming

/-!
# Where characters come from

The steps of a rendering that change a text put texts together, take parts away and replace spans.
None of them makes up a character, but for the blank between two fragments and what the name of
an element and the placeholder around it are written with. So what holds of the characters of the
texts that go in, and of those, holds of the characters of the text that comes out.
-/

namespace MappedSql

namespace Text

def Spelled (P : Char → Prop) (s : String) : Prop :=
  ∀ c ∈ s.toList, P c

instance (P : Char → Prop) [DecidablePred P] (s : String) : Decidable (Spelled P s) :=
  inferInstanceAs (Decidable (∀ c ∈ s.toList, P c))

variable {P : Char → Prop} {s t : String}

@[simp] theorem spelled_empty : Spelled P "" := by
  simp [Spelled]

@[simp] theorem spelled_append : Spelled P (s ++ t) ↔ Spelled P s ∧ Spelled P t := by
  simp only [Spelled, String.toList_append, List.forall_mem_append]

@[simp] theorem spelled_ofList {s : List Char} : Spelled P (String.ofList s) ↔ ∀ c ∈ s, P c := by
  simp only [Spelled, String.toList_ofList]

theorem spelled_join {texts : List String} (h : ∀ text ∈ texts, Spelled P text) :
    Spelled P (String.join texts) := by
  induction texts with
  | nil => simp
  | cons text rest ih =>
    obtain ⟨htext, hrest⟩ := List.forall_mem_cons.mp h
    rw [String.join_cons, spelled_append]
    exact ⟨htext, ih hrest⟩

-- ---------------------------------------------------------------------------
-- Spans
-- ---------------------------------------------------------------------------

def Piece.characters : Piece → List Char
  | .literal text => text
  | .span content => content
  | .clash => []

section
variable {text before after content rest : List Char} {mark : List Char}

theorem subset_of_cut (h : cut mark text = some (before, after)) :
    before ⊆ text ∧ mark ⊆ text ∧ after ⊆ text := by
  rw [eq_append_of_cut h]
  simp

theorem subset_of_spanContent (h : spanContent mark text = some (content, rest)) :
    content ⊆ text ∧ rest ⊆ text := by
  fun_induction spanContent mark text generalizing content with
  | case1 => cases h
  | case2 text before after hcut hescaped ih =>
    obtain ⟨⟨content, _⟩, hspan, ⟨⟩⟩ := Option.map_eq_some_iff.mp h
    obtain ⟨hbefore, hmark, hafter⟩ := subset_of_cut hcut
    obtain ⟨hcontent, hrest⟩ := ih hspan
    have hinit := List.Subset.trans (List.dropLast_subset before) hbefore
    have hcontent := List.Subset.trans hcontent hafter
    exact ⟨List.append_subset.mpr ⟨List.append_subset.mpr ⟨hinit, hmark⟩, hcontent⟩,
      List.Subset.trans hrest hafter⟩
  | case3 text before after hcut hescaped =>
    cases h
    obtain ⟨hbefore, -, hafter⟩ := subset_of_cut hcut
    exact ⟨hbefore, hafter⟩

end

namespace Delimiters

variable {d : Delimiters}

theorem subset_of_piecesAfter (ho : d.opening ≠ []) (last : Option Char) (text : List Char) :
    ∀ p ∈ d.piecesAfter ho last text, p.characters ⊆ text := by
  fun_induction piecesAfter d ho last text with
  | case1 last text => simp [Piece.characters]
  | case2 last text before after hcut hescaped hbefore => simp [Piece.characters]
  | case3 last text before after hcut hescaped hbefore ih =>
    obtain ⟨hbefore, hopening, hafter⟩ := subset_of_cut hcut
    rw [List.forall_mem_cons]
    have hinit := List.Subset.trans (List.dropLast_subset before) hbefore
    exact ⟨List.append_subset.mpr ⟨hinit, hopening⟩,
      fun p hp => List.Subset.trans (ih p hp) hafter⟩
  | case4 last text => simp [Piece.characters]
  | case5 last text before after hcut hescaped content rest hspan ih =>
    obtain ⟨hbefore, -, hafter⟩ := subset_of_cut hcut
    obtain ⟨hcontent, hrest⟩ := subset_of_spanContent hspan
    rw [List.forall_mem_cons, List.forall_mem_cons]
    exact ⟨hbefore, List.Subset.trans hcontent hafter,
      fun p hp => List.Subset.trans (ih p hp) (List.Subset.trans hrest hafter)⟩

theorem subset_of_pieces (d : Delimiters) (text : String) :
    ∀ p ∈ d.pieces text, p.characters ⊆ text.toList := by
  unfold pieces
  split
  · simp [Piece.characters]
  · rename_i ho
    split
    · simp [Piece.characters]
    · exact subset_of_piecesAfter ho none text.toList

end Delimiters

namespace Spanned

theorem spelled_ofPieces {ps : List Piece} (h : ∀ p ∈ ps, ∀ c ∈ p.characters, P c) :
    (∀ literal ∈ (ofPieces ps).literals, Spelled P literal) ∧
      ∀ content ∈ (ofPieces ps).contents, Spelled P content := by
  induction ps with
  | nil => simp [ofPieces, literals, contents]
  | cons p ps ih =>
    obtain ⟨hp, hps⟩ := List.forall_mem_cons.mp h
    obtain ⟨hliterals, hcontents⟩ := ih hps
    rw [literals, List.forall_mem_cons] at hliterals
    cases p with
    | literal text =>
      refine ⟨?_, hcontents⟩
      rw [literals, List.forall_mem_cons]
      exact ⟨spelled_append.mpr ⟨spelled_ofList.mpr hp, hliterals.1⟩, hliterals.2⟩
    | span content =>
      refine ⟨?_, List.forall_mem_cons.mpr ⟨spelled_ofList.mpr hp, hcontents⟩⟩
      rw [literals, List.forall_mem_cons]
      exact ⟨spelled_empty, List.forall_mem_cons.mpr hliterals⟩
    | clash =>
      refine ⟨?_, hcontents⟩
      rw [literals, List.forall_mem_cons]
      exact hliterals

theorem fill_eq_weave (f : String → String) (t : Spanned) :
    t.fill f = t.weave (t.contents.map f) := by
  rw [fill, weave, contents, List.map_map, List.zipWith_map, List.zipWith_self]
  rfl

theorem spelled_weave {t : Spanned} {texts : List String}
    (hliterals : ∀ literal ∈ t.literals, Spelled P literal)
    (htexts : ∀ text ∈ texts, Spelled P text) : Spelled P (t.weave texts) := by
  obtain ⟨hstart, hafter⟩ := List.forall_mem_cons.mp hliterals
  rw [weave, spelled_append, ← List.map_uncurry_zip_eq_zipWith]
  refine ⟨hstart, spelled_join (List.forall_mem_map.mpr ?_)⟩
  rintro ⟨text, literal⟩ hmem
  obtain ⟨htext, hliteral⟩ := List.of_mem_zip hmem
  exact spelled_append.mpr ⟨htexts text htext, hafter literal hliteral⟩

end Spanned

namespace Delimiters

variable {d : Delimiters} {text : String}

theorem spelled_spanned (h : Spelled P text) :
    (∀ literal ∈ (d.spanned text).literals, Spelled P literal) ∧
      ∀ content ∈ (d.spanned text).contents, Spelled P content :=
  Spanned.spelled_ofPieces fun p hp c hc => h c (d.subset_of_pieces text p hp hc)

theorem spelled_replace {f : String → String} (h : Spelled P text)
    (hf : ∀ content, Spelled P content → Spelled P (f content)) :
    Spelled P (d.replace f text) := by
  obtain ⟨hliterals, hcontents⟩ := d.spelled_spanned h
  rw [replace_eq_fill, Spanned.fill_eq_weave]
  exact Spanned.spelled_weave hliterals
    (List.forall_mem_map.mpr fun content hcontent => hf content (hcontents content hcontent))

theorem spelled_replaceM {f : String → Except Error String} {replaced : String}
    (h : Spelled P text) (hreplaced : d.replaceM f text = .ok replaced)
    (hf : ∀ content ∈ d.contents text, ∀ t, f content = .ok t → Spelled P t) :
    Spelled P replaced := by
  rw [replaceM_eq_fillM, Spanned.fillM, ← bind_pure_comp, bind_ok] at hreplaced
  obtain ⟨texts, htexts, ⟨⟩⟩ := hreplaced
  rw [← contents_spanned] at hf
  exact Spanned.spelled_weave (d.spelled_spanned h).1 ((mapM_ok.mp htexts).forall_right hf)

end Delimiters

end Text

namespace Template

open Text (Spelled)

variable {P : Char → Prop}

/-- `P` holds of the characters that a rendering writes by itself. -/
structure AllowsGenerated (P : Char → Prop) : Prop where
  blank : P ' '
  placeholder : Spelled P (Placeholder.ofContent "")
  elementName : Spelled P "__frch_"
  digit : ∀ c : Char, c.isDigit → P c

theorem Context.spelled_join (hP : AllowsGenerated P) {fragments : List String}
    (h : ∀ fragment ∈ fragments, Spelled P fragment) : Spelled P (Context.join fragments) := by
  have hblank : Spelled P " " := List.forall_mem_singleton.mpr hP.blank
  unfold Context.join
  induction fragments with
  | nil => exact Text.spelled_empty
  | cons fragment rest ih =>
    obtain ⟨hfragment, hrest⟩ := List.forall_mem_cons.mp h
    cases rest with
    | nil => simpa using hfragment
    | cons next rest =>
      rw [String.intercalate_cons_cons, Text.spelled_append, Text.spelled_append]
      exact ⟨⟨hfragment, hblank⟩, ih hrest⟩

theorem Trim.spelled_apply (hP : AllowsGenerated P) {t : Trim} {part : String}
    (htexts : ∀ text ∈ t.opening.toList ++ t.closing.toList, Spelled P text)
    (hpart : Spelled P part) : Spelled P (t.apply part) := by
  have hblank : Spelled P " " := List.forall_mem_singleton.mpr hP.blank
  obtain ⟨hopening, hclosing⟩ := List.forall_mem_append.mp htexts
  rcases t.apply_cases part with ⟨happly, -⟩ | ⟨pre, core, post, hparts, happly, -⟩
  · rw [happly]
    exact Text.spelled_empty
  · have hcore : Spelled P (String.ofList core) := by
      rw [Spelled, hparts, List.forall_mem_append, List.forall_mem_append] at hpart
      exact Text.spelled_ofList.mpr hpart.1.2
    rw [happly, Trim.frame, Text.spelled_append, Text.spelled_append]
    refine ⟨⟨?_, hcore⟩, ?_⟩
    · cases ho : t.opening with
      | none => exact Text.spelled_empty
      | some opening => exact Text.spelled_append.mpr ⟨hopening opening (by simp [ho]), hblank⟩
    · cases hc : t.closing with
      | none => exact Text.spelled_empty
      | some closing => exact Text.spelled_append.mpr ⟨hblank, hclosing closing (by simp [hc])⟩

namespace Loop

variable {l : Loop}

theorem spelled_elementName (hP : AllowsGenerated P) {name : String} (h : Spelled P name)
    (n : Nat) : Spelled P (elementName name n) := by
  intro c hc
  rw [toList_elementName, List.mem_append, List.mem_append, List.mem_cons] at hc
  rcases hc with hc | hc | rfl | hc
  · exact hP.elementName c hc
  · exact h c hc
  · exact hP.elementName '_' (by decide)
  · exact hP.digit c (Nat.isDigit_of_mem_toDigits (by decide) (by decide) hc)

theorem spelled_renamed {name replacement content content' : String}
    (h : renamed? name replacement content = some content') (hreplacement : Spelled P replacement)
    (hcontent : Spelled P content) : Spelled P content' := by
  obtain ⟨rest, hrest, h⟩ := Option.bind_eq_some_iff.mp h
  split at h
  · cases h
    refine Text.spelled_append.mpr ⟨hreplacement, Text.spelled_ofList.mpr fun c hc => hcontent c ?_⟩
    have htrimmed : c ∈ Text.trimStart content.toList := by
      rw [Text.eq_append_of_isPrefixOf? hrest]
      exact List.mem_append_right _ hc
    exact (List.dropWhile_sublist _).subset htrimmed
  · cases h

theorem spelled_contentFor (hP : AllowsGenerated P) (hnames : ∀ name ∈ l.names, Spelled P name)
    (n : Nat) {content : String} (h : Spelled P content) : Spelled P (l.contentFor n content) := by
  rcases l.contentFor_cases n content with hsame | ⟨name, hname, hrenamed⟩
  · rwa [hsame]
  · exact spelled_renamed hrenamed (spelled_elementName hP (hnames name hname) n) h

theorem spelled_bodyFor (hP : AllowsGenerated P) (hnames : ∀ name ∈ l.names, Spelled P name)
    (n : Nat) {body : String} (h : Spelled P body) : Spelled P (l.bodyFor n body) := by
  refine Text.Delimiters.spelled_replace h fun content hcontent => ?_
  have hmarks := hP.placeholder
  simp only [Placeholder.ofContent, Text.spelled_append] at hmarks ⊢
  exact ⟨⟨hmarks.1.1, spelled_contentFor hP hnames n hcontent⟩, hmarks.2⟩

end Loop

end Template

end MappedSql
