/-
  DiskScope/Proofs/Text/Utf8.lean --- text that is UTF-8 is read back unchanged.

  WHAT THIS FILE IS FOR.  Bytes that are not UTF-8 are shown with replacement characters.
  Here it is shown that nothing is ever replaced in bytes that are UTF-8: the bytes of a
  character, read one by one, complete that character and no other, and leave nothing
  pending, whatever follows them.

  MAIN STATEMENTS.

      decodeFrom_char    the bytes of one character give that character
      decode_encode      the bytes of a text give that text
-/
import DiskScope.Text.Utf8

set_option autoImplicit false

namespace DiskScope.Text.Utf8

/-! ## One byte after the other -/

theorem toNat_byte {n : Nat} (h : n < 256) : (UInt8.ofNat n).toNat = n := by
  rw [UInt8.toNat_ofNat', Nat.mod_eq_of_lt h]

theorem lead_one {b : Nat} (h : b < 0x80) : lead b = ([Char.ofNat b], none) := if_pos h

theorem lead_two {b : Nat} (hlow : 0xC2 ≤ b) (hhigh : b < 0xE0) :
    lead b = ([], some ⟨b - 0xC0, 0, 0x80, 0xBF⟩) := by
  rw [lead, if_neg (by omega), if_neg (by omega), if_pos hhigh]

theorem lead_three {b : Nat} (hlow : 0xE0 ≤ b) (hhigh : b < 0xF0) :
    lead b = ([], some ⟨b - 0xE0, 1, if b = 0xE0 then 0xA0 else 0x80,
      if b = 0xED then 0x9F else 0xBF⟩) := by
  rw [lead, if_neg (by omega), if_neg (by omega), if_neg (by omega), if_pos hhigh]

theorem lead_four {b : Nat} (hlow : 0xF0 ≤ b) (hhigh : b < 0xF5) :
    lead b = ([], some ⟨b - 0xF0, 2, if b = 0xF0 then 0x90 else 0x80,
      if b = 0xF4 then 0x8F else 0xBF⟩) := by
  rw [lead, if_neg (by omega), if_neg (by omega), if_neg (by omega), if_neg (by omega),
    if_pos hhigh]

/-- A first byte in front of anything. -/
theorem decodeFrom_first {b : Nat} (h : b < 256) (rest : Bytes) :
    decodeFrom none (UInt8.ofNat b :: rest) = (lead b).1 ++ decodeFrom (lead b).2 rest := by
  rw [decodeFrom, toNat_byte h]
  rfl

theorem decodeFrom_tail {code owed low high b : Nat} (hlow : low ≤ b) (hhigh : b ≤ high)
    (h : b < 256) (rest : Bytes) :
    decodeFrom (some ⟨code, owed + 1, low, high⟩) (UInt8.ofNat b :: rest) =
      decodeFrom (some ⟨code * 64 + (b - 0x80), owed, 0x80, 0xBF⟩) rest := by
  simp only [decodeFrom, step, toNat_byte h, hlow, hhigh, and_self, if_true, List.nil_append]

theorem decodeFrom_last {code low high b : Nat} (hlow : low ≤ b) (hhigh : b ≤ high)
    (h : b < 256) (rest : Bytes) :
    decodeFrom (some ⟨code, 0, low, high⟩) (UInt8.ofNat b :: rest) =
      Char.ofNat (code * 64 + (b - 0x80)) :: decodeFrom none rest := by
  simp only [decodeFrom, step, toNat_byte h, hlow, hhigh, and_self, if_true, List.cons_append,
    List.nil_append]

/-! ## Characters -/

theorem ofNat_code (c : Char) : Char.ofNat c.val.toNat = c := Char.ofNat_toNat c

/-- The bytes of a character give that character and leave nothing pending. -/
theorem decodeFrom_char (c : Char) (rest : Bytes) :
    decodeFrom none (String.utf8EncodeChar c ++ rest) = c :: decodeFrom none rest := by
  have hcode := ofNat_code c
  -- No character has a code between the two ranges, and UTF-8 has no bytes for one.
  have hvalid : c.val.toNat < 0xD800 ∨ 0xDFFF < c.val.toNat ∧ c.val.toNat < 0x110000 := c.valid
  unfold String.utf8EncodeChar
  generalize c.val.toNat = v at *
  simp only
  split
  · rename_i hone
    rw [List.singleton_append, decodeFrom_first (by omega), lead_one (by omega), hcode,
      List.singleton_append]
  split
  · rename_i htwo
    have hsum : (v / 64 % 32 + 192 - 0xC0) * 64 + (v % 64 + 128 - 0x80) = v := by omega
    simp only [List.cons_append, List.nil_append]
    rw [decodeFrom_first (by omega), lead_two (by omega) (by omega), List.nil_append,
      decodeFrom_last (by omega) (by omega) (by omega), hsum, hcode]
  split
  · rename_i hthree
    have hsum : ((v / 4096 % 16 + 224 - 0xE0) * 64 + (v / 64 % 64 + 128 - 0x80)) * 64 +
        (v % 64 + 128 - 0x80) = v := by omega
    simp only [List.cons_append, List.nil_append]
    rw [decodeFrom_first (by omega), lead_three (by omega) (by omega), List.nil_append,
      decodeFrom_tail (by split <;> omega) (by split <;> omega) (by omega),
      decodeFrom_last (by omega) (by omega) (by omega), hsum, hcode]
  · have hsum : (((v / 262144 % 8 + 240 - 0xF0) * 64 + (v / 4096 % 64 + 128 - 0x80)) * 64 +
        (v / 64 % 64 + 128 - 0x80)) * 64 + (v % 64 + 128 - 0x80) = v := by omega
    simp only [List.cons_append, List.nil_append]
    rw [decodeFrom_first (by omega), lead_four (by omega) (by omega), List.nil_append,
      decodeFrom_tail (by split <;> omega) (by split <;> omega) (by omega),
      decodeFrom_tail (by omega) (by omega) (by omega),
      decodeFrom_last (by omega) (by omega) (by omega), hsum, hcode]

theorem decodeFrom_chars (chars : List Char) :
    decodeFrom none (chars.flatMap String.utf8EncodeChar) = chars := by
  induction chars with
  | nil => rfl
  | cons c rest ih => rw [List.flatMap_cons, decodeFrom_char, ih]

/-! ## Texts -/

/-- Listing a byte array goes through its bytes one after the other. -/
theorem toList_loop (bytes : ByteArray) (i : Nat) (listed : List UInt8) :
    ByteArray.toList.loop bytes i listed = listed.reverse ++ bytes.data.toList.drop i := by
  fun_induction ByteArray.toList.loop bytes i listed with
  | case1 i listed hlt ih =>
    have hin : i < bytes.data.toList.length := by rw [Array.length_toList]; exact hlt
    rw [ih, List.reverse_cons, List.append_assoc, List.drop_eq_getElem_cons hin]
    simp [ByteArray.get!, hlt]
  | case2 i listed hend =>
    rw [List.drop_of_length_le (by rw [Array.length_toList]; exact Nat.le_of_not_lt hend),
      List.append_nil]

theorem encode_eq (text : String) : encode text = text.toList.flatMap String.utf8EncodeChar := by
  have hbytes : text.toByteArray = text.toList.utf8Encode := by
    rw [← String.toByteArray_ofList, String.ofList_toList]
  rw [encode, String.toUTF8, ByteArray.toList, toList_loop, hbytes, List.utf8Encode,
    List.data_toByteArray, List.reverse_nil, List.nil_append, List.drop_zero]

/-- The bytes of a text give that text. -/
theorem decode_encode (text : String) : decode (encode text) = text := by
  rw [decode, encode_eq, decodeFrom_chars, String.ofList_toList]

end DiskScope.Text.Utf8
