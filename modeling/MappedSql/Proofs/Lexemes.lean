import MappedSql.Expression
import MappedSql.Proofs.WrittenPlaceholders

/-!
# How tokens are written

A token is written in one of several ways: an operator by its sign or by its word, a text between
quotes of either kind with a backslash before some of its characters. Words follow the syntax of
paths, in which a bracket is closed before the word ends. What is written is read as the token,
and what follows it is left alone. A word, a number or a sign needs something after it that could
not be a part of it; a text and a parenthesis end by themselves.
-/

namespace MappedSql

namespace Text

theorem Ranges.exists_of_contains {ranges : Ranges} {n : Nat} (h : ranges.contains n) :
    ∃ range ∈ ranges, range.1 ≤ n ∧ n ≤ range.2 := by
  induction ranges with
  | nil => cases h
  | cons range rest ih =>
    obtain ⟨lo, hi⟩ := range
    rw [Ranges.contains] at h
    split at h
    · cases h
    · rename_i hlo
      rcases Bool.or_eq_true_iff.mp h with hhi | hrest
      · exact ⟨_, List.mem_cons_self, Nat.not_lt.mp hlo, of_decide_eq_true hhi⟩
      · obtain ⟨found, hmem, hfound⟩ := ih hrest
        exact ⟨found, List.mem_cons_of_mem _ hmem, hfound⟩

theorem Ranges.contains_cons_of_before {lo hi n : Nat} {rest : Ranges} (h : n < lo) :
    Ranges.contains ((lo, hi) :: rest) n = false := by
  simp [Ranges.contains, h]

/-- There are few blank characters, so each can be looked at. -/
theorem not_isAlphanumeric_of_isBlank {c : Char} (h : isBlank c) : isAlphanumeric c = false := by
  obtain ⟨range, hrange, hlo, hhi⟩ := Ranges.exists_of_contains h
  have hall : ∀ range ∈ blankRanges, ∀ n ∈ List.range' range.1 (range.2 + 1 - range.1),
      alphabeticRanges.contains n = false ∧ decimalDigitRanges.contains n = false ∧
        otherNumberRanges.contains n = false := by
    decide +kernel
  have hmem : c.toNat ∈ List.range' range.1 (range.2 + 1 - range.1) := by
    rw [List.mem_range'_1]
    omega
  obtain ⟨halpha, hdigit, hother⟩ := hall range hrange _ hmem
  simp [isAlphanumeric, isNumeric, isAlphabetic, isDecimalDigit, halpha, hdigit, hother]

theorem not_isAlphabetic_of_isDigit {c : Char} (h : c.isDigit) : isAlphabetic c = false := by
  have hle : c.toNat < 0x41 := by
    simp only [Char.isDigit, Bool.and_eq_true, decide_eq_true_eq, UInt32.le_iff_toNat_le] at h
    exact Nat.lt_of_le_of_lt h.2 (by decide)
  exact Ranges.contains_cons_of_before hle

theorem digits?_toDigits (n : Nat) : digits? (Nat.toDigits 10 n) = some n := by
  have hall : (Nat.toDigits 10 n).all Char.isDigit := by
    rw [List.all_eq_true]
    exact fun c hc => Nat.isDigit_of_mem_toDigits (by decide) (by decide) hc
  have hempty : (Nat.toDigits 10 n).isEmpty = false := by simp [Nat.toDigits_ne_nil]
  have hvalue := Nat.ofDigitChars_ten_toDigits (n := n)
  simp only [Nat.ofDigitChars, Nat.mul_comm 10] at hvalue
  rw [digits?, hall, hempty, hvalue]
  rfl

theorem exists_toDigits_eq_cons (n : Nat) :
    ∃ c rest, Nat.toDigits 10 n = c :: rest ∧ c.isDigit := by
  obtain ⟨c, rest, h⟩ := List.exists_cons_of_ne_nil (Nat.toDigits_ne_nil (n := n) (b := 10))
  have hc : c ∈ Nat.toDigits 10 n := h ▸ List.mem_cons_self
  exact ⟨c, rest, h, Nat.isDigit_of_mem_toDigits (by decide) (by decide) hc⟩

theorem toList_toString_int (n : Int) : (toString n).toList =
    if n < 0 then '-' :: Nat.toDigits 10 n.natAbs else Nat.toDigits 10 n.natAbs := by
  change n.repr.toList = _
  rw [Int.repr_eq_if]
  by_cases hn : n < 0
  · have habs : (-n).toNat = n.natAbs := by omega
    rw [if_neg (Int.not_le.mpr hn), if_pos hn, String.toList_append, Nat.toList_repr, habs]
    rfl
  · have habs : n.toNat = n.natAbs := by omega
    rw [if_pos (Int.not_lt.mp hn), if_neg hn, Nat.toList_repr, habs]

def int64? (n : Int) : Option Int64 :=
  if -Int.pow 2 63 ≤ n ∧ n < Int.pow 2 63 then some (.ofInt n) else none

theorem int64?_toInt (n : Int64) : int64? n.toInt = some n := by
  have hlow : -Int.pow 2 63 ≤ n.toInt := n.le_toInt
  have hhigh : n.toInt < Int.pow 2 63 := n.toInt_lt
  rw [int64?, if_pos ⟨hlow, hhigh⟩, Int64.ofInt_toInt]

theorem signed?_minus {s : List Char} {m : Nat} (h : digits? s = some m) :
    signed? ('-' :: s) = int64? (-(m : Int)) := by
  rw [signed?, h]
  rfl

theorem signed?_cons {c : Char} {s : List Char} {m : Nat} (hc : c.isDigit)
    (h : digits? (c :: s) = some m) : signed? (c :: s) = int64? m := by
  have hsign : ∀ sign, sign.isDigit = false → ∀ rest, c :: s = sign :: rest → False := by
    rintro sign hsign rest ⟨⟩
    rw [hsign] at hc
    cases hc
  rw [signed?.eq_3 _ (hsign '-' rfl) (hsign '+' rfl), h]
  change (some (m : Int)).bind int64? = _
  exact Option.bind_some _ _

theorem signed?_toDigits (n : Int64) :
    signed? (if n.toInt < 0 then '-' :: Nat.toDigits 10 n.toInt.natAbs
      else Nat.toDigits 10 n.toInt.natAbs) = some n := by
  have hdigits := digits?_toDigits n.toInt.natAbs
  by_cases hn : n.toInt < 0
  · have hvalue : -(n.toInt.natAbs : Int) = n.toInt := by omega
    rw [if_pos hn, signed?_minus hdigits, hvalue, int64?_toInt]
  · have hvalue : (n.toInt.natAbs : Int) = n.toInt := by omega
    obtain ⟨c, rest, hcons, hc⟩ := exists_toDigits_eq_cons n.toInt.natAbs
    rw [hcons] at hdigits
    rw [if_neg hn, hcons, signed?_cons hc hdigits, hvalue, int64?_toInt]

end Text

namespace Expression

-- ---------------------------------------------------------------------------
-- Words
-- ---------------------------------------------------------------------------

/-- What may follow the first character of a word: letters, digits, underscores and points, and
brackets that are closed, with anything in them. -/
inductive WordRest : List Char → Prop
  | nil : WordRest []
  | part {c : Char} {rest : List Char} (hc : isWordPart c) (hrest : WordRest rest) :
      WordRest (c :: rest)
  | index {inside rest : List Char} (hinside : ']' ∉ inside) (hrest : WordRest rest) :
      WordRest ('[' :: (inside ++ ']' :: rest))

def reserved : List String :=
  ["null", "true", "false", "and", "or", "not", "eq", "neq", "lt", "lte", "gt", "gte"]

def IsWord (w : List Char) : Prop :=
  ∃ c rest, w = c :: rest ∧ startsWord c ∧ WordRest rest

def IsPath (text : String) : Prop :=
  IsWord text.toList ∧ text ∉ reserved

def backslashed (escaped : Char → Bool) (s : List Char) : List Char :=
  s.flatMap fun c => if escaped c then ['\\', c] else [c]

/-- A place where a word, a number or a sign ends: at the end of the text, or before a character
that could not be a part of it. -/
def Ends (s : List Char) : Prop :=
  ∀ c ∈ s.head?, isWordPart c = false ∧ c ≠ '[' ∧ c ≠ '='

section
variable {total start : Nat} {last : Option Token} {c quote : Char} {w s rest : List Char}

theorem WordRest.append_parts (hw : w.all isWordPart) (hrest : WordRest rest) :
    WordRest (w ++ rest) := by
  induction w with
  | nil => exact hrest
  | cons c w ih =>
    obtain ⟨hc, hw⟩ := Bool.and_eq_true_iff.mp hw
    exact .part hc (ih hw)

theorem WordRest.of_parts (hw : w.all isWordPart) : WordRest w := by
  simpa using WordRest.nil.append_parts hw

theorem ends_nil : Ends [] :=
  nofun

theorem ends_cons : Ends (c :: s) ↔ isWordPart c = false ∧ c ≠ '[' ∧ c ≠ '=' := by
  simp [Ends]

theorem not_isWordPart_of_isBlank (h : Text.isBlank c) : isWordPart c = false := by
  have hunderscore : c ≠ '_' := by
    rintro rfl
    cases h
  have hpoint : c ≠ '.' := by
    rintro rfl
    cases h
  simp [isWordPart, Text.not_isAlphanumeric_of_isBlank h, hunderscore, hpoint]

theorem ends_of_isBlank (h : Text.isBlank c) : Ends (c :: s) := by
  refine ends_cons.mpr ⟨not_isWordPart_of_isBlank h, ?_, ?_⟩
  · rintro rfl
    cases h
  · rintro rfl
    cases h

theorem not_isBlank_of_isWordPart (h : isWordPart c) : Text.isBlank c = false := by
  by_contra hblank
  rw [not_isWordPart_of_isBlank (by simpa using hblank)] at h
  cases h

theorem isWordPart_of_isNumberPart (h : isNumberPart c) : isWordPart c := by
  simp only [isNumberPart, Bool.or_eq_true] at h
  rcases h with h | h
  · simp [isWordPart, Text.isAlphanumeric, Text.isNumeric, Text.isDecimalDigit_of_isDigit h]
  · simp [isWordPart, h]

theorem Ends.head_number (h : Ends s) : ∀ c ∈ s.head?, isNumberPart c = false := by
  intro c hc
  by_contra hnumber
  rw [Bool.not_eq_false] at hnumber
  have hends := (h c hc).1
  rw [isWordPart_of_isNumberPart hnumber] at hends
  cases hends

theorem not_isDigit_of_startsWord (h : startsWord c) : c.isDigit = false := by
  by_contra hdigit
  rw [Bool.not_eq_false] at hdigit
  simp only [startsWord, Text.not_isAlphabetic_of_isDigit hdigit, Bool.false_or, beq_iff_eq] at h
  rw [h] at hdigit
  cases hdigit

-- ---------------------------------------------------------------------------
-- Reading words, numbers and texts
-- ---------------------------------------------------------------------------

theorem readWord_opened (position : Nat) {inside : List Char} (h : ']' ∉ inside) :
    readWord total (some position) (inside ++ ']' :: rest) =
      (readWord total none rest).map fun (word, after) => (inside ++ ']' :: word, after) := by
  induction inside with
  | nil =>
    rw [List.nil_append, readWord, if_pos rfl]
    cases readWord total none rest <;> rfl
  | cons c inside ih =>
    obtain ⟨hc, hinside⟩ := not_or.mp (mt List.mem_cons.mpr h)
    rw [List.cons_append, readWord, if_neg (Ne.symm hc), ih hinside]
    cases readWord total none rest <;> rfl

theorem readWord_append (hw : WordRest w) (hrest : Ends rest) :
    readWord total none (w ++ rest) = .ok (w, rest) := by
  induction hw with
  | nil =>
    cases rest with
    | nil => rfl
    | cons c rest =>
      obtain ⟨hpart, hbracket, -⟩ := ends_cons.mp hrest
      simp [readWord, hpart, hbracket]
  | part hc _ ih =>
    simp only [List.cons_append, readWord, hc, if_true, ih]
    rfl
  | @index inside w hinside _ ih =>
    have hpart : isWordPart '[' = false := by decide +kernel
    simp only [List.cons_append, List.append_assoc, readWord, hpart, Bool.false_eq_true, if_false,
      if_true, readWord_opened _ hinside, ih]
    rfl

theorem readNumber_toDigits (n : Int64) (hrest : Ends rest) :
    readNumber (n.toInt < 0) (Nat.toDigits 10 n.toInt.natAbs ++ rest) = .ok (.int n, rest) := by
  have hdigit : ∀ c ∈ Nat.toDigits 10 n.toInt.natAbs, c.isDigit := fun c hc =>
    Nat.isDigit_of_mem_toDigits (by decide) (by decide) hc
  have hpoint : (Nat.toDigits 10 n.toInt.natAbs).contains '.' = false := by
    rw [List.contains_eq_mem, decide_eq_false_iff_not]
    intro hm
    cases hdigit '.' hm
  have hnumber : ∀ c ∈ Nat.toDigits 10 n.toInt.natAbs, isNumberPart c := fun c hc => by
    simp [isNumberPart, hdigit c hc]
  have hspan := Text.span_append hnumber hrest.head_number
  have htoken : numberToken? (n.toInt < 0) (Nat.toDigits 10 n.toInt.natAbs) = some (.int n) := by
    have hsigned := Text.signed?_toDigits n
    simp only [numberToken?, hpoint, Bool.false_eq_true, if_false, decide_eq_true_eq, hsigned,
      Option.map_some]
  simp only [readNumber, hspan, htoken]

theorem readText_cons (h : c ≠ '\\') (s : List Char) : readText quote start (c :: s) =
    if c = quote then .ok ([], s)
    else (readText quote start s).map fun (text, after) => (c :: text, after) := by
  rw [readText]
  · split
    · rfl
    · cases readText quote start s <;> rfl
  · rintro rfl
    exact fun _ => h rfl
  · rintro _ _ rfl
    exact fun _ => h rfl

/-- Backslashes are dropped from a text, so long as its quotes and its own backslashes have one. -/
theorem readText_backslashed {escaped : Char → Bool} (hquote : escaped quote)
    (hbackslash : escaped '\\') (hne : quote ≠ '\\') (s : List Char) :
    readText quote start (backslashed escaped s ++ quote :: rest) = .ok (s, rest) := by
  induction s with
  | nil => rw [backslashed, List.flatMap_nil, List.nil_append, readText_cons hne, if_pos rfl]
  | cons c s ih =>
    rw [backslashed, List.flatMap_cons, List.append_assoc, ← backslashed]
    by_cases hc : escaped c
    · rw [if_pos hc]
      simp only [List.cons_append, List.nil_append, readText, ih]
      rfl
    · have hcquote : c ≠ quote := by
        rintro rfl
        exact hc hquote
      have hcbackslash : c ≠ '\\' := by
        rintro rfl
        exact hc hbackslash
      rw [if_neg hc, List.singleton_append, readText_cons hcbackslash, if_neg hcquote, ih]
      rfl

-- ---------------------------------------------------------------------------
-- Reading tokens
-- ---------------------------------------------------------------------------

def signStarts : List Char :=
  ['(', ')', '=', '!', '<', '>', '&', '|']

theorem readToken_of_not_sign (h : c ∉ signStarts) (s : List Char) :
    readToken total last c s =
      if c = '\'' ∨ c = '"' then do
        let (text, after) ← readText c (total - (s.length + 1)) s
        return (.text (String.ofList text), after)
      else if c = '-' ∧ (s.head?.any Char.isDigit) ∧ !(last.any Token.endsOperand) then
        readNumber true s
      else if c.isDigit then
        readNumber false (c :: s)
      else if startsWord c then do
        let (word, after) ← readWord total none (c :: s)
        return (Token.ofWord (String.ofList word), after)
      else
        .error (.unexpectedCharacter c (total - (s.length + 1))) := by
  simp only [signStarts, List.mem_cons, List.not_mem_nil, or_false, not_or] at h
  rw [readToken]
  all_goals simp_all

theorem not_mem_signStarts_of_startsWord (h : startsWord c) :
    c ∉ signStarts ∧ c ≠ '\'' ∧ c ≠ '"' ∧ c ≠ '-' := by
  have hall : ('\'' :: '"' :: '-' :: signStarts).all (!startsWord ·) := by decide +kernel
  have hne : ∀ d ∈ '\'' :: '"' :: '-' :: signStarts, c ≠ d := by
    rintro d hd rfl
    have hnot := List.all_eq_true.mp hall c hd
    rw [h] at hnot
    cases hnot
  refine ⟨fun hm => hne c ?_ rfl, hne _ ?_, hne _ ?_, hne _ ?_⟩
  · simp [hm]
  all_goals simp

theorem readToken_word (hc : startsWord c) (hw : WordRest w) (hrest : Ends rest) :
    readToken total last c (w ++ rest) = .ok (Token.ofWord (String.ofList (c :: w)), rest) := by
  obtain ⟨hsign, hsingle, hdouble, hminus⟩ := not_mem_signStarts_of_startsWord hc
  have hread : readWord total none (c :: (w ++ rest)) = .ok (c :: w, rest) :=
    readWord_append (.part (isWordPart_of_startsWord hc) hw) hrest
  simp only [readToken_of_not_sign hsign, hsingle, hdouble, hminus, or_self, false_and, if_false,
    not_isDigit_of_startsWord hc, Bool.false_eq_true, hc, if_true, hread]
  rfl

theorem readToken_minus {n : Int64} (hn : n.toInt < 0) (hlast : last.any Token.endsOperand = false)
    (hrest : Ends rest) :
    readToken total last '-' (Nat.toDigits 10 n.toInt.natAbs ++ rest) = .ok (.int n, rest) := by
  have hread := readNumber_toDigits n hrest
  obtain ⟨c, s, hdigits, hc⟩ := Text.exists_toDigits_eq_cons n.toInt.natAbs
  rw [hdigits] at hread ⊢
  rw [readToken_of_not_sign (by decide), if_neg (by decide), if_pos, ← hread]
  · simp [hn]
  · simp [hc, hlast]

theorem readToken_digits {n : Int64} (hn : 0 ≤ n.toInt) (hrest : Ends rest)
    (hs : Nat.toDigits 10 n.toInt.natAbs = c :: s) :
    readToken total last c (s ++ rest) = .ok (.int n, rest) := by
  have hread := readNumber_toDigits n hrest
  have hc : c.isDigit := by
    refine Nat.isDigit_of_mem_toDigits (b := 10) (n := n.toInt.natAbs) (by decide) (by decide) ?_
    rw [hs]
    exact List.mem_cons_self
  have hne : ∀ d : Char, d.isDigit = false → c ≠ d := by
    rintro d hd rfl
    rw [hd] at hc
    cases hc
  have hsign : c ∉ signStarts := fun hm => by
    have hall : signStarts.all (!·.isDigit) := by decide
    exact hne c (by simpa using List.all_eq_true.mp hall c hm) rfl
  rw [readToken_of_not_sign hsign, if_neg, if_neg, if_pos hc, ← List.cons_append, ← hs, ← hread]
  · simp [Int.not_lt.mpr hn]
  · exact fun h => hne '-' rfl h.1
  · rintro (h | h)
    · exact hne '\'' rfl h
    · exact hne '"' rfl h

theorem readToken_text {escaped : Char → Bool} (hkind : quote = '\'' ∨ quote = '"')
    (hquote : escaped quote) (hbackslash : escaped '\\') (s : List Char) :
    readToken total last quote (backslashed escaped s ++ quote :: rest) =
      .ok (.text (String.ofList s), rest) := by
  have hsign : quote ∉ signStarts := by
    rcases hkind with rfl | rfl <;> decide
  have hne : quote ≠ '\\' := by
    rcases hkind with rfl | rfl <;> decide
  rw [readToken_of_not_sign hsign, if_pos hkind, readText_backslashed hquote hbackslash hne]
  rfl

end

end Expression

end MappedSql
