/-
  DiskScope/Proofs/Text/Numeral.lean --- numerals, read back.

  WHAT THIS FILE IS FOR.  Numbers are written in base 8, 10 or 16, sometimes with zeros in front.
  This file starts the other side: `readNumeral` takes a number from its digits, in any base
  up to sixteen.  A text that is followed by something else is cut where its digits end.

  MAIN STATEMENTS.

      digit_of_mem_toDigits       a numeral is made of digits of its base
      readNumeral_toDigits        and is read back
      readNumeral_hexPadded       zeros in front make no difference
-/
import DiskScope.Text.Layout

set_option autoImplicit false

namespace DiskScope.Text

/-! ## Digits -/

/-- The digits in order, for bases up to sixteen. -/
def digitChars : List Char :=
  ['0', '1', '2', '3', '4', '5', '6', '7', '8', '9', 'a', 'b', 'c', 'd', 'e', 'f']

/-- The number that a digit stands for. -/
def digitValue (c : Char) : Nat := digitChars.idxOf c

theorem digitValue_digitChar : ∀ d < 16, digitValue (Nat.digitChar d) = d := by decide

theorem digitChar_mem : ∀ d < 16, Nat.digitChar d ∈ digitChars := by decide

/-- Numerals are made of digits. -/
theorem digit_of_mem_toDigits {base n : Nat} (hbase : 1 < base) {c : Char}
    (h : c ∈ Nat.toDigits base n) : ∃ d < base, c = Nat.digitChar d := by
  induction n using Nat.strongRecOn with
  | ind n ih =>
    rw [Nat.toDigits_eq_if hbase] at h
    split at h
    · rename_i hlt
      exact ⟨n, hlt, List.mem_singleton.1 h⟩
    · rename_i hle
      rcases List.mem_append.1 h with hmem | hmem
      · exact ih (n / base) (Nat.div_lt_self (by omega) hbase) hmem
      · exact ⟨n % base, Nat.mod_lt n (by omega), List.mem_singleton.1 hmem⟩

/-! ## Reading numerals -/

/-- The number whose digits are `text`, the most significant first. -/
def readNumeral (base : Nat) (text : List Char) : Nat :=
  text.foldl (fun number c => base * number + digitValue c) 0

@[simp] theorem readNumeral_nil (base : Nat) : readNumeral base [] = 0 := rfl

theorem readNumeral_concat (base : Nat) (front : List Char) (c : Char) :
    readNumeral base (front ++ [c]) = base * readNumeral base front + digitValue c := by
  simp [readNumeral]

/-- A numeral is read back. -/
theorem readNumeral_toDigits {base : Nat} (hbase : 1 < base) (hmax : base ≤ 16) (n : Nat) :
    readNumeral base (Nat.toDigits base n) = n := by
  -- The last digit is the rest of the division that gives the others.
  induction n using Nat.strongRecOn with
  | ind n ih =>
    rw [Nat.toDigits_eq_if hbase]
    split
    · rename_i hlt
      rw [← List.nil_append [Nat.digitChar n], readNumeral_concat,
        digitValue_digitChar n (by omega), readNumeral_nil, Nat.mul_zero, Nat.zero_add]
    · rename_i hle
      have hrest : n % base < base := Nat.mod_lt n (by omega)
      rw [readNumeral_concat, ih (n / base) (Nat.div_lt_self (by omega) hbase),
        digitValue_digitChar _ (by omega), Nat.div_add_mod]

/-- Zeros in front make no difference. -/
theorem readNumeral_zeros (base count : Nat) (text : List Char) :
    readNumeral base (List.replicate count '0' ++ text) = readNumeral base text := by
  have hzero : digitValue '0' = 0 := by decide
  induction count with
  | zero => simp
  | succ count ih =>
    rw [List.replicate_succ, List.cons_append, ← ih]
    simp [readNumeral, hzero]

/-! ## Texts of numbers -/

theorem toList_decimal (n : Nat) : (decimal n).toList = Nat.toDigits 10 n :=
  String.toList_ofList

theorem toList_hexPadded (width n : Nat) :
    (hexPadded width n).toList =
      List.replicate (width - (Nat.toDigits 16 n).length) '0' ++ Nat.toDigits 16 n := by
  simp [hexPadded, padLeftWith, hexDigits, numeral]

theorem readNumeral_hexPadded (width n : Nat) :
    readNumeral 16 (hexPadded width n).toList = n := by
  rw [toList_hexPadded, readNumeral_zeros, readNumeral_toDigits (by omega) (by omega)]

/-- Filled up or not, a hexadecimal numeral is made of digits. -/
theorem mem_digitChars_of_mem_hexPadded {width n : Nat} {c : Char}
    (h : c ∈ (hexPadded width n).toList) : c ∈ digitChars := by
  rw [toList_hexPadded, List.mem_append] at h
  rcases h with hzero | hdigit
  · rw [(List.mem_replicate.1 hzero).2]
    exact digitChar_mem 0 (by omega)
  · obtain ⟨d, hlt, rfl⟩ := digit_of_mem_toDigits (by omega) hdigit
    exact digitChar_mem d hlt

end DiskScope.Text
