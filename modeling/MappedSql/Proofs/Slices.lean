import Mathlib.Data.String.Basic

/-!
# Slices of a text

Positions in a text count its bytes. A part of a text is a slice of it when its two ends are in
order and on character boundaries. The positions that are known are those of characters: the text
before one is a list of characters, which takes `utf8Len` bytes. The byte before a position is a
backslash just where the character before it is one, since the last byte of a character that takes
several is no character by itself.
-/

namespace MappedSql.Text

open String (utf8Len)
open String.Pos (Raw)

-- ---------------------------------------------------------------------------
-- Slices
-- ---------------------------------------------------------------------------

/-- What a text does not have: a slice between two positions, or a byte. -/
inductive Fault
  | slice (start stop : Nat)
  | byte (position : Nat)
  deriving DecidableEq, Repr

structure Fits (text : String) (start stop : Nat) : Prop where
  ordered : start ≤ stop
  start_valid : Raw.IsValid text ⟨start⟩
  stop_valid : Raw.IsValid text ⟨stop⟩

instance (text : String) (start stop : Nat) : Decidable (Fits text start stop) :=
  decidable_of_iff (start ≤ stop ∧ Raw.IsValid text ⟨start⟩ ∧ Raw.IsValid text ⟨stop⟩)
    ⟨fun ⟨ordered, start_valid, stop_valid⟩ => { ordered, start_valid, stop_valid },
      fun h => ⟨h.ordered, h.start_valid, h.stop_valid⟩⟩

theorem Fits.isValidUTF8 {text : String} {start stop : Nat} (h : Fits text start stop) :
    (text.toByteArray.extract start stop).IsValidUTF8 :=
  (Raw.isValidUTF8_extract_iff ⟨start⟩ ⟨stop⟩ h.ordered h.stop_valid.le_rawEndPos).mpr
    (.inr ⟨h.start_valid, h.stop_valid⟩)

def slice (text : String) (start stop : Nat) : Except Fault String :=
  if h : Fits text start stop then
    .ok (.ofByteArray (text.toByteArray.extract start stop) h.isValidUTF8)
  else .error (.slice start stop)

def byteAt (text : String) (position : Nat) : Except Fault UInt8 :=
  match text.toByteArray[position]? with
  | some byte => .ok byte
  | none => .error (.byte position)

section
variable {text before part after : String} {start stop : Nat}

theorem extract_append (before part after : String) :
    (before ++ part ++ after).toByteArray.extract before.utf8ByteSize
      (before ++ part).utf8ByteSize = part.toByteArray := by
  rw [String.append_assoc, String.toByteArray_append, String.utf8ByteSize_append,
    ← String.size_toByteArray, ← Nat.add_zero before.toByteArray.size, Nat.add_assoc,
    ByteArray.extract_append_size_add, String.toByteArray_append, Nat.zero_add]
  exact ByteArray.extract_append_eq_left String.size_toByteArray.symm

theorem fits_append (before part after : String) :
    Fits (before ++ part ++ after) before.utf8ByteSize (before ++ part).utf8ByteSize where
  ordered := by
    rw [String.utf8ByteSize_append]
    omega
  start_valid := Raw.isValid_iff_exists_append.mpr
    ⟨before, part ++ after, String.append_assoc, rfl⟩
  stop_valid := Raw.isValid_iff_exists_append.mpr ⟨before ++ part, after, rfl, rfl⟩

theorem slice_append (before part after : String) :
    slice (before ++ part ++ after) before.utf8ByteSize (before ++ part).utf8ByteSize =
      .ok part := by
  rw [slice, dif_pos (fits_append before part after)]
  exact congrArg _ (String.toByteArray_inj.mp (extract_append before part after))

theorem size_of_slice (h : slice text start stop = .ok part) :
    start ≤ stop ∧ stop ≤ text.utf8ByteSize ∧ part.utf8ByteSize = stop - start := by
  unfold slice at h
  split at h
  · rename_i hfits
    cases h
    have hstop : stop ≤ text.utf8ByteSize := hfits.stop_valid.le_rawEndPos
    refine ⟨hfits.ordered, hstop, ?_⟩
    rw [← String.size_toByteArray, ByteArray.size_extract, String.size_toByteArray,
      Nat.min_eq_left hstop]
  · cases h
end

-- ---------------------------------------------------------------------------
-- Positions of characters
-- ---------------------------------------------------------------------------

section
variable {text : String} {a b rest : List Char}

theorem utf8Len_pos {mark : List Char} (h : mark ≠ []) : 0 < utf8Len mark :=
  Nat.pos_of_ne_zero (mt String.utf8Len_eq_zero.mp h)

theorem eq_ofList_append (h : text.toList = a ++ b) :
    text = String.ofList a ++ String.ofList b := by
  rw [← String.ofList_append, ← h, String.ofList_toList]

theorem utf8Len_toList (text : String) : utf8Len text.toList = text.utf8ByteSize := by
  rw [← String.utf8ByteSize_ofList, String.ofList_toList]

theorem slice_at (h : text.toList = a ++ b ++ rest) :
    slice text (utf8Len a) (utf8Len (a ++ b)) = .ok (String.ofList b) := by
  have htext := slice_append (String.ofList a) (String.ofList b) (String.ofList rest)
  rw [← String.ofList_append, ← eq_ofList_append h, String.utf8ByteSize_ofList,
    String.utf8ByteSize_ofList] at htext
  exact htext

theorem slice_rest (h : text.toList = a ++ b) :
    slice text (utf8Len a) text.utf8ByteSize = .ok (String.ofList b) := by
  have htext : text.toList = a ++ b ++ [] := by rw [h, List.append_nil]
  have hslice := slice_at htext
  rwa [← h, utf8Len_toList] at hslice

theorem slice_dropLast (h : text.toList = a ++ b ++ rest)
    (hlast : b.getLast? = some '\\') :
    slice text (utf8Len a) (utf8Len (a ++ b) - 1) = .ok (String.ofList b.dropLast) := by
  obtain ⟨b, rfl⟩ := List.getLast?_eq_some_iff.mp hlast
  have hsize : utf8Len (a ++ (b ++ ['\\'])) - 1 = utf8Len (a ++ b) := by
    rw [← List.append_assoc, String.utf8Len_append]
    rfl
  rw [← List.append_assoc, List.append_assoc] at h
  rw [hsize, slice_at h, List.dropLast_concat]

-- ---------------------------------------------------------------------------
-- Bytes of characters
-- ---------------------------------------------------------------------------

/-- The last byte of a character that takes several is no ASCII character. -/
theorem lastByte_ne (x : UInt8) : x &&& 63 ||| 128 ≠ '\\'.toUInt8 := by
  intro h
  have hbit := congrArg (fun byte : UInt8 => byte.toBitVec.getLsbD 7) h
  simp at hbit
  exact absurd hbit (by decide)

theorem getLast?_utf8EncodeChar (c : Char) :
    (String.utf8EncodeChar c).getLast? = some '\\'.toUInt8 ↔ c = '\\' := by
  constructor
  · intro h
    rcases Char.utf8Size_eq c with hsize | hsize | hsize | hsize
    · rw [String.utf8EncodeChar_eq_singleton hsize, List.getLast?_singleton, Option.some_inj] at h
      have hbyte := congrArg UInt8.toNat h
      have hsmall := UInt32.le_iff_toNat_le.mp (Char.utf8Size_eq_one_iff.mp hsize)
      rw [UInt32.toNat_toUInt8, Nat.mod_eq_of_lt (Nat.lt_of_le_of_lt hsmall (by decide))] at hbyte
      exact Char.ext (UInt32.toNat_inj.mp hbyte)
    · rw [String.utf8EncodeChar_eq_cons_cons hsize] at h
      exact absurd (Option.some.inj h) (lastByte_ne _)
    · rw [String.utf8EncodeChar_eq_cons_cons_cons hsize] at h
      exact absurd (Option.some.inj h) (lastByte_ne _)
    · rw [String.utf8EncodeChar_eq_cons_cons_cons_cons hsize] at h
      exact absurd (Option.some.inj h) (lastByte_ne _)
  · rintro rfl
    decide

theorem length_encoded (s : List Char) :
    (s.flatMap String.utf8EncodeChar).length = utf8Len s := by
  induction s with
  | nil => rfl
  | cons c s ih =>
    rw [List.flatMap_cons, List.length_append, ih, String.length_utf8EncodeChar,
      String.utf8Len_cons, Nat.add_comm]

theorem getElem?_toByteArray (text : String) (position : Nat) :
    text.toByteArray[position]? = (text.toList.flatMap String.utf8EncodeChar)[position]? := by
  rw [← String.utf8Encode_toList, List.utf8Encode, ← List.getElem?_toArray, ← List.data_toByteArray]
  rfl

theorem byte_before {c : Char} (h : text.toList = a ++ [c] ++ b) :
    text.toByteArray[utf8Len (a ++ [c]) - 1]? = (String.utf8EncodeChar c).getLast? := by
  have hpos : 0 < (String.utf8EncodeChar c).length :=
    List.length_pos_iff.mpr String.utf8EncodeChar_ne_nil
  have hlast : utf8Len (a ++ [c]) - 1 =
      (a.flatMap String.utf8EncodeChar).length + ((String.utf8EncodeChar c).length - 1) := by
    rw [← length_encoded, List.flatMap_append, List.flatMap_singleton, List.length_append]
    omega
  rw [getElem?_toByteArray, h, List.append_assoc, List.flatMap_append, List.flatMap_append,
    List.flatMap_singleton, hlast, List.getElem?_append_right (Nat.le_add_right _ _),
    Nat.add_sub_cancel_left, List.getElem?_append_left (by omega), List.getLast?_eq_getElem?]

theorem backslash_before {c : Char} (h : text.toList = a ++ [c] ++ b) :
    (· == '\\'.toUInt8) <$> byteAt text (utf8Len (a ++ [c]) - 1) = .ok (decide (c = '\\')) := by
  have hbyte := byte_before h
  rw [List.getLast?_eq_some_getLast String.utf8EncodeChar_ne_nil] at hbyte
  rw [byteAt, hbyte]
  refine congrArg Except.ok (Bool.eq_iff_iff.mpr ?_)
  rw [beq_iff_eq, decide_eq_true_iff, ← getLast?_utf8EncodeChar,
    List.getLast?_eq_some_getLast String.utf8EncodeChar_ne_nil, Option.some_inj]

end

end MappedSql.Text
