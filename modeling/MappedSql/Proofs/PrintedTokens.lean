import Mathlib.Data.List.Chain
import MappedSql.Proofs.Lexemes

/-!
# Printing tokens

Tokens are printed in a row with blanks between them, each in a style of its own, and are read back
as they were. The blanks may be left out next to a text or a parenthesis. A negative number is read
back only where no operand ends before it, since the minus sign would stand by itself there, and a
word that is a literal or an operator is not read back as a path.

The induction is on the row, after any token: a token reads as itself whatever is printed after it,
because that starts with a blank, or else one of the two stands alone.
-/

namespace MappedSql.Expression

-- ---------------------------------------------------------------------------
-- Written tokens
-- ---------------------------------------------------------------------------

structure Style where
  /-- Operators are written by their signs, and not by their words. -/
  signs : Bool := true
  /-- Texts stand between double quotes, and not between single ones. -/
  double : Bool := false
  /-- The characters of a text that get a backslash although they could do without. -/
  escaped : Char → Bool := fun _ => false

namespace Style

def quote (style : Style) : Char :=
  if style.double then '"' else '\''

/-- The quotes that stand around the text need a backslash inside it, and so do backslashes. -/
def escapes (style : Style) (c : Char) : Bool :=
  c == style.quote || c == '\\' || style.escaped c

def operator (style : Style) (sign word : String) : String :=
  if style.signs then sign else word

theorem quote_cases (style : Style) : style.quote = '\'' ∨ style.quote = '"' := by
  unfold quote
  split
  · exact .inr rfl
  · exact .inl rfl

end Style

def Comparison.written (style : Style) : Comparison → String
  | .eq => style.operator "==" "eq"
  | .ne => style.operator "!=" "neq"
  | .lt => style.operator "<" "lt"
  | .le => style.operator "<=" "lte"
  | .gt => style.operator ">" "gt"
  | .ge => style.operator ">=" "gte"

namespace Token

def written (style : Style) : Token → List Char
  | .path name => name.toList
  | .int n => (Value.int n).display.toList
  | .double d => (Value.double d).display.toList
  | .text s => style.quote :: (backslashed style.escapes s.toList ++ [style.quote])
  | .null => "null".toList
  | .boolean true => "true".toList
  | .boolean false => "false".toList
  | .and => (style.operator "&&" "and").toList
  | .or => (style.operator "||" "or").toList
  | .not => (style.operator "!" "not").toList
  | .compare op => (op.written style).toList
  | .opening => ['(']
  | .closing => [')']

/-- Paths are words that stand for nothing else. Nothing is said about numbers with a point. -/
def Printable : Token → Prop
  | .path name => IsPath name
  | .double _ => False
  | _ => True

/-- Such a token ends by itself, whatever is written after it. -/
def standsAlone : Token → Bool
  | .text _ | .opening | .closing => true
  | _ => false

/-- An operand by itself. -/
def isOperand (t : Token) : Bool :=
  (t.operand? []).isSome

def isNegative : Token → Bool
  | .int n => n.toInt < 0
  | _ => false

theorem endsOperand_eq (t : Token) : t.endsOperand = (t.isOperand || t == .closing) := by
  cases t <;> rfl

end Token

section
variable {total : Nat} {last : Option Token} {rest : List Char} {t : Token} {word : String}

def Reads (total : Nat) (last : Option Token) (s rest : List Char) (t : Token) : Prop :=
  ∃ c w, s = c :: w ∧ Text.isBlank c = false ∧ readToken total last c (w ++ rest) = .ok (t, rest)

theorem IsWord.reads (h : IsWord word.toList) (hrest : Ends rest) :
    Reads total last word.toList rest (Token.ofWord word) := by
  obtain ⟨c, w, hword, hc, hw⟩ := h
  refine ⟨c, w, hword, not_isBlank_of_isWordPart (isWordPart_of_startsWord hc), ?_⟩
  rw [readToken_word hc hw hrest, ← hword, String.ofList_toList]

theorem reserved_reads (h : word ∈ reserved) (hrest : Ends rest) :
    Reads total last word.toList rest (Token.ofWord word) := by
  have hall : ∀ word ∈ reserved, word.toList.head?.any startsWord ∧
      word.toList.tail.all isWordPart := by
    decide +kernel
  obtain ⟨hstarts, hparts⟩ := hall word h
  obtain ⟨c, hhead, hc⟩ := (Option.any_eq_true _ _).mp hstarts
  have hword : word.toList = c :: word.toList.tail := (List.cons_head?_tail hhead).symm
  exact IsWord.reads ⟨c, _, hword, hc, .of_parts hparts⟩ hrest

theorem ofWord_eq_path (h : word ∉ reserved) : Token.ofWord word = .path word := by
  have hlookup : Token.keywords.lookup word = none := by
    rw [List.lookup_eq_none_iff]
    rintro ⟨keyword, _⟩ hm
    rw [bne_iff_ne]
    rintro rfl
    exact h (List.mem_map_of_mem (f := Prod.fst) hm)
  rw [Token.ofWord, hlookup]
  rfl

theorem IsPath.reads (h : IsPath word) (hrest : Ends rest) :
    Reads total last word.toList rest (.path word) :=
  ofWord_eq_path h.2 ▸ h.1.reads hrest

/-- A sign that an equals sign could go on is one by itself before anything else. -/
theorem readToken_sign {c : Char} (hrest : Ends rest)
    (h : (c, t) ∈ [('!', Token.not), ('<', .compare .lt), ('>', .compare .gt)]) :
    readToken total last c rest = .ok (t, rest) := by
  have hne : ∀ s, rest ≠ '=' :: s := by
    rintro s rfl
    exact (ends_cons.mp hrest).2.2 rfl
  simp only [List.mem_cons, Prod.mk.injEq, List.not_mem_nil, or_false] at h
  rcases h with ⟨rfl, rfl⟩ | ⟨rfl, rfl⟩ | ⟨rfl, rfl⟩
  all_goals
    rw [readToken]
    exact hne

theorem Style.reads_operator (style : Style) {sign : String} (hword : word ∈ reserved)
    (ht : Token.ofWord word = t) (hsign : Reads total last sign.toList rest t)
    (hrest : Ends rest) : Reads total last (style.operator sign word).toList rest t := by
  unfold Style.operator
  split
  · exact hsign
  · exact ht ▸ reserved_reads hword hrest

theorem Comparison.reads_written (style : Style) (op : Comparison) (hrest : Ends rest) :
    Reads total last (op.written style).toList rest (.compare op) := by
  cases op with
  | eq => exact style.reads_operator (by decide) rfl ⟨'=', ['='], rfl, rfl, rfl⟩ hrest
  | ne => exact style.reads_operator (by decide) rfl ⟨'!', ['='], rfl, rfl, rfl⟩ hrest
  | lt =>
    exact style.reads_operator (by decide) rfl
      ⟨'<', [], rfl, rfl, readToken_sign hrest (by simp)⟩ hrest
  | le => exact style.reads_operator (by decide) rfl ⟨'<', ['='], rfl, rfl, rfl⟩ hrest
  | gt =>
    exact style.reads_operator (by decide) rfl
      ⟨'>', [], rfl, rfl, readToken_sign hrest (by simp)⟩ hrest
  | ge => exact style.reads_operator (by decide) rfl ⟨'>', ['='], rfl, rfl, rfl⟩ hrest

theorem reads_int {n : Int64} (hsign : n.toInt < 0 → last.any Token.endsOperand = false)
    (hrest : Ends rest) : Reads total last (Value.int n).display.toList rest (.int n) := by
  rw [Value.display, Text.toList_toString_int]
  split
  · rename_i hn
    exact ⟨'-', _, rfl, rfl, readToken_minus hn (hsign hn) hrest⟩
  · rename_i hn
    obtain ⟨c, s, hs, hc⟩ := Text.exists_toDigits_eq_cons n.toInt.natAbs
    have hpart : isWordPart c := isWordPart_of_isNumberPart (by simp [isNumberPart, hc])
    exact ⟨c, s, hs, not_isBlank_of_isWordPart hpart,
      readToken_digits (Int.not_lt.mp hn) hrest hs⟩

theorem reads_text (style : Style) (s : String) :
    Reads total last ((Token.text s).written style) rest (.text s) := by
  refine ⟨style.quote, _, rfl, ?_, ?_⟩
  · rcases style.quote_cases with h | h <;> rw [h] <;> rfl
  · rw [List.append_assoc, List.singleton_append, readToken_text style.quote_cases
      (by simp [Style.escapes]) (by simp [Style.escapes]), String.ofList_toList]

/-- What is written for a token is read as the token, in any style. -/
theorem Token.reads_written (h : t.Printable) (style : Style)
    (hsign : t.isNegative → last.any endsOperand = false) (hrest : t.standsAlone ∨ Ends rest) :
    Reads total last (t.written style) rest t := by
  have hends : t.standsAlone = false → Ends rest := fun halone =>
    hrest.resolve_left (by simp [halone])
  cases t with
  | path name => exact IsPath.reads h (hends rfl)
  | int n => exact reads_int (fun hn => hsign (by simpa [isNegative] using hn)) (hends rfl)
  | double d => exact h.elim
  | text s => exact reads_text style s
  | null => exact reserved_reads (by decide) (hends rfl)
  | boolean b =>
    cases b with
    | true => exact reserved_reads (by decide) (hends rfl)
    | false => exact reserved_reads (by decide) (hends rfl)
  | and => exact style.reads_operator (by decide) rfl ⟨'&', ['&'], rfl, rfl, rfl⟩ (hends rfl)
  | or => exact style.reads_operator (by decide) rfl ⟨'|', ['|'], rfl, rfl, rfl⟩ (hends rfl)
  | not =>
    exact style.reads_operator (by decide) rfl
      ⟨'!', [], rfl, rfl, readToken_sign (hends rfl) (by simp)⟩ (hends rfl)
  | compare op => exact op.reads_written style (hends rfl)
  | opening => exact ⟨'(', [], rfl, rfl, rfl⟩
  | closing => exact ⟨')', [], rfl, rfl, rfl⟩

end

-- ---------------------------------------------------------------------------
-- Rows of tokens
-- ---------------------------------------------------------------------------

section
variable {total : Nat} {last : Option Token} {gap s rest : List Char} {t : Token}

theorem tokensAfter_blanks (h : gap.all Text.isBlank) :
    tokensAfter total last (gap ++ s) = tokensAfter total last s := by
  induction gap with
  | nil => rfl
  | cons c gap ih =>
    obtain ⟨hc, hgap⟩ := Bool.and_eq_true_iff.mp h
    rw [List.cons_append, tokensAfter, if_pos hc, ih hgap]

theorem tokensAfter_reads (h : Reads total last s rest t) :
    tokensAfter total last (s ++ rest) = (tokensAfter total (some t) rest).map (t :: ·) := by
  obtain ⟨c, w, rfl, hc, hread⟩ := h
  rw [List.cons_append, tokensAfter, hc]
  simp only [Bool.false_eq_true, if_false]
  split
  · rename_i heq
    rw [hread] at heq
    cases heq
  · rename_i heq
    rw [hread] at heq
    cases heq
    cases tokensAfter total (some t) rest <;> rfl

end

theorem IsPath.tokens {word : String} (h : IsPath word) : tokens word = .ok [.path word] := by
  have hword : Reads word.toList.length none word.toList [] (.path word) := h.reads ends_nil
  have hread := tokensAfter_reads hword
  rw [List.append_nil, tokensAfter] at hread
  exact hread

structure Printed where
  gap : List Char := []
  style : Style := {}
  token : Token

def Printed.chars (p : Printed) : List Char :=
  p.gap ++ p.token.written p.style

structure Row where
  printed : List Printed
  ending : List Char := []

namespace Row

def tokens (r : Row) : List Token :=
  r.printed.map (·.token)

def text (r : Row) : String :=
  String.ofList (r.printed.flatMap Printed.chars ++ r.ending)

/-- Blanks stand between two tokens, but may be missing where one of them stands alone. No negative
number follows an operand or a closing parenthesis. -/
structure Faithful (r : Row) : Prop where
  printable : ∀ t ∈ r.tokens, t.Printable
  blank : ∀ p ∈ r.printed, p.gap.all Text.isBlank
  ending : r.ending.all Text.isBlank
  apart : r.printed.IsChain fun p q => q.gap ≠ [] ∨ p.token.standsAlone ∨ q.token.standsAlone
  signs : r.tokens.IsChain fun t u => t.isOperand ∨ t = .closing → ¬u.isNegative

end Row

section
variable {total : Nat} {last : Option Token} {rest : List Char} {t : Token} {p : Printed}
  {ps : List Printed} {ending : List Char}

theorem ends_of_standsAlone (h : t.standsAlone) (style : Style) :
    Ends (t.written style ++ rest) := by
  cases t with
  | text s =>
    rw [Token.written, List.cons_append, ends_cons]
    rcases style.quote_cases with hquote | hquote <;> rw [hquote] <;> decide +kernel
  | opening => exact ends_cons.mpr (by decide +kernel)
  | closing => exact ends_cons.mpr (by decide +kernel)
  | _ => cases h

theorem ends_of_blanks (h : ending.all Text.isBlank) : Ends ending := by
  cases ending with
  | nil => exact ends_nil
  | cons c rest => exact ends_of_isBlank (Bool.and_eq_true_iff.mp h).1

namespace Row.Faithful

theorem tail (h : Faithful ⟨p :: ps, ending⟩) : Faithful ⟨ps, ending⟩ where
  printable t ht := h.printable t (List.mem_cons_of_mem _ ht)
  blank q hq := h.blank q (List.mem_cons_of_mem _ hq)
  ending := h.ending
  apart := h.apart.of_cons
  signs := h.signs.of_cons

theorem ends (h : Faithful ⟨p :: ps, ending⟩) :
    p.token.standsAlone ∨ Ends (ps.flatMap Printed.chars ++ ending) := by
  cases ps with
  | nil => exact .inr (ends_of_blanks h.ending)
  | cons q ps =>
    rw [or_iff_not_imp_left]
    intro halone
    have hq := h.blank q (List.mem_cons_of_mem _ List.mem_cons_self)
    rw [List.flatMap_cons, Printed.chars, List.append_assoc, List.append_assoc]
    rcases (List.isChain_cons_cons.mp h.apart).1 with hgap | hp | hq'
    · obtain ⟨c, gap, hcons⟩ := List.exists_cons_of_ne_nil hgap
      rw [hcons] at hq ⊢
      exact ends_of_isBlank (Bool.and_eq_true_iff.mp hq).1
    · exact absurd hp halone
    · cases hgap : q.gap with
      | nil => exact ends_of_standsAlone hq' q.style
      | cons c gap =>
        rw [hgap] at hq
        exact ends_of_isBlank (Bool.and_eq_true_iff.mp hq).1

theorem sign (h : Faithful ⟨p :: ps, ending⟩) :
    ∀ q ∈ ps.head?, q.token.isNegative → p.token.endsOperand = false := by
  intro q hq hnegative
  cases ps with
  | nil => cases hq
  | cons q' ps =>
    cases hq
    have hsign := (List.isChain_cons_cons.mp h.signs).1
    by_contra hoperand
    rw [Bool.not_eq_false, Token.endsOperand_eq, Bool.or_eq_true, beq_iff_eq] at hoperand
    exact hsign hoperand hnegative

end Row.Faithful

/-- A row is read after any token, unless an operand ends there and a negative number is next. -/
theorem tokensAfter_row (h : Row.Faithful ⟨ps, ending⟩)
    (hsign : ∀ p ∈ ps.head?, p.token.isNegative → last.any Token.endsOperand = false) :
    tokensAfter total last (ps.flatMap Printed.chars ++ ending) = .ok (ps.map (·.token)) := by
  induction ps generalizing last with
  | nil =>
    have hblanks : tokensAfter total last (ending ++ []) = tokensAfter total last [] :=
      tokensAfter_blanks h.ending
    rw [List.append_nil] at hblanks
    rw [List.flatMap_nil, List.nil_append, hblanks, tokensAfter]
    rfl
  | cons p ps ih =>
    have hreads : Reads total last (p.token.written p.style) (ps.flatMap Printed.chars ++ ending)
        p.token :=
      Token.reads_written (h.printable p.token List.mem_cons_self) p.style (hsign p rfl) h.ends
    have hrest : tokensAfter total (some p.token) (ps.flatMap Printed.chars ++ ending) =
        .ok (ps.map (·.token)) :=
      ih h.tail h.sign
    rw [List.flatMap_cons, Printed.chars, List.append_assoc, List.append_assoc,
      tokensAfter_blanks (h.blank p List.mem_cons_self), tokensAfter_reads hreads, hrest]
    rfl

end

/-- What is printed is read as it was, token by token. -/
theorem rows_read_back (r : Row) (h : r.Faithful) : tokens r.text = .ok r.tokens := by
  simp only [tokens, Row.tokens, Row.text, String.toList_ofList]
  exact tokensAfter_row h fun _ _ _ => rfl

def crowdedRow : Row where
  printed :=
    [{ style := { signs := false }, token := .not }, { token := .opening },
      { token := .path "ids[-1 or 'x'].größe" }, { gap := [' '], token := .compare .le },
      { gap := ['\t', '\u3000'], token := .int Int64.minValue }, { token := .closing },
      { style := { signs := false }, token := .or },
      { token := .text "it's \"\\\"" },
      { style := { signs := false }, token := .compare .ne },
      { style := { double := true, escaped := (· == '\'') }, token := .text "it's \"\\\"" },
      { gap := [' '], token := .and }, { gap := ['\n'], token := .not },
      { gap := [' '], token := .int (-7) }]
  ending := [' ']

theorem crowded_path : IsPath "ids[-1 or 'x'].größe" := by
  have hindex : WordRest ('[' :: ("-1 or 'x'".toList ++ ']' :: ".größe".toList)) :=
    .index (by decide) (.of_parts (by decide +kernel))
  have hword : WordRest "ds[-1 or 'x'].größe".toList :=
    hindex.append_parts (w := "ds".toList) (by decide +kernel)
  exact ⟨⟨'i', _, rfl, by decide +kernel, hword⟩, by decide⟩

theorem crowded_row_reads_back :
    crowdedRow.Faithful ∧
    crowdedRow.text = "not(ids[-1 or 'x'].größe <=\t\u3000-9223372036854775808)or" ++
      "'it\\'s \"\\\\\"'neq\"it\\'s \\\"\\\\\\\"\" &&\n! -7 " ∧
    tokens crowdedRow.text = .ok
      [.not, .opening, .path "ids[-1 or 'x'].größe", .compare .le, .int Int64.minValue, .closing,
        .or, .text "it's \"\\\"", .compare .ne, .text "it's \"\\\"", .and, .not, .int (-7)] := by
  have hprintable : ∀ t ∈ crowdedRow.tokens, t.Printable := by
    simp [crowdedRow, Row.tokens, Token.Printable, crowded_path]
  have h : crowdedRow.Faithful :=
    ⟨hprintable, by decide +kernel, by decide +kernel, by decide +kernel, by decide +kernel⟩
  exact ⟨h, by decide +kernel, rows_read_back crowdedRow h⟩

end MappedSql.Expression
