/-
  DiskScope/Proofs/Bitmap/Members.lean --- a bitmap as the set of its bits.

  WHAT THIS FILE IS FOR.  A bitmap is used through `test` alone.  This file says what
  every operation does to `test`, so that nothing later looks at bytes.

  THE INVARIANT.  `WellFormed` says that there are just enough bytes, and that the bits
  of the last byte past the end are clear.  Every operation keeps it.  The first part
  is what lets each bit below the end be set; the second is what lets whole bytes be
  counted and compared with zero.

  MAIN STATEMENTS.

      test_setRange    a range adds exactly its bits, those past the end left out
      test_invert      inverting flips exactly the bits below the end
-/
import DiskScope.Bitmap

set_option autoImplicit false

namespace DiskScope.Bitmap

/-! ## The invariant -/

/-- The bit at position `i` of the bytes, whether or not the map has such a bit. -/
def stored (map : Bitmap) (i : Nat) : Bool :=
  (map.byteOf i).toNat.testBit (i % 8)

/-- Just enough bytes, and no bit set past the end. -/
structure WellFormed (map : Bitmap) : Prop where
  /-- The bytes that the bits need. -/
  size_eq : map.bytes.size = (map.bitCount + 7) / 8
  /-- The rest of the last byte is clear. -/
  padding : ∀ i, map.bitCount ≤ i → map.stored i = false

theorem test_eq (map : Bitmap) (i : Nat) :
    map.test i = (decide (i < map.bitCount) && map.stored i) := rfl

theorem test_of_le {map : Bitmap} {i : Nat} (h : map.bitCount ≤ i) : map.test i = false := by
  simp [test_eq, Nat.not_lt.2 h]

theorem lt_of_test {map : Bitmap} {i : Nat} (h : map.test i = true) : i < map.bitCount := by
  rw [test_eq, Bool.and_eq_true, decide_eq_true_eq] at h
  exact h.1

/-- On a well-formed map the bytes hold exactly the bits. -/
theorem WellFormed.stored_eq {map : Bitmap} (h : map.WellFormed) (i : Nat) :
    map.stored i = map.test i := by
  by_cases hi : i < map.bitCount
  · simp [test_eq, hi]
  · rw [test_of_le (Nat.not_lt.1 hi), h.padding i (Nat.not_lt.1 hi)]

/-- The byte of every bit of a well-formed map is there. -/
theorem WellFormed.byte_lt {map : Bitmap} (h : map.WellFormed) {i : Nat} (hi : i < map.bitCount) :
    i / 8 < map.bytes.size := by
  rw [h.size_eq]; omega

/-! ## A blank map -/

theorem byteOf_blank (bitCount i : Nat) : (blank bitCount).byteOf i = 0 := by
  unfold byteOf blank
  rw [Array.getD_eq_getD_getElem?, Array.getElem?_replicate]
  split <;> rfl

@[simp] theorem test_blank (bitCount i : Nat) : (blank bitCount).test i = false := by
  simp [test, byteOf_blank]

theorem wellFormed_blank (bitCount : Nat) : (blank bitCount).WellFormed where
  size_eq := by simp [blank]
  padding := by
    intro i _
    simp [stored, byteOf_blank]

/-! ## Setting bits -/

/-- Setting a bit adds it, if the map has it, and changes no other. -/
theorem WellFormed.test_set {map : Bitmap} (h : map.WellFormed) (i j : Nat) :
    (map.set i).test j = (map.test j || decide (j = i ∧ i < map.bitCount)) := by
  by_cases hi : i < map.bitCount
  · rw [Bitmap.test_set map hi (h.byte_lt hi)]
    simp [hi]
  · rw [set, if_neg hi]
    simp [hi]

theorem WellFormed.set {map : Bitmap} (h : map.WellFormed) (i : Nat) : (map.set i).WellFormed := by
  by_cases hi : i < map.bitCount
  · refine ⟨by simp [h.size_eq], ?_⟩
    intro j hj
    rw [bitCount_set] at hj
    have hclear := h.padding j hj
    unfold stored at hclear ⊢
    rw [byteOf_set map hi (h.byte_lt hi)]
    split
    · rename_i hbyte
      rw [UInt8.toNat_or, Nat.testBit_or, hclear, toNat_mask, Nat.one_shiftLeft,
        Nat.testBit_two_pow]
      simp only [Bool.false_or, decide_eq_false_iff_not]
      omega
    · exact hclear
  · rw [Bitmap.set, if_neg hi]
    exact h

/-- A bit that cannot be newly set is set already, or is none of the map's. -/
theorem test_or_of_not_canSet {map : Bitmap} {i : Nat} (h : map.canSet i = false) (j : Nat) :
    (map.test j || decide (j = i ∧ i < map.bitCount)) = map.test j := by
  by_cases hj : j = i ∧ i < map.bitCount
  · obtain ⟨rfl, hlt⟩ := hj
    have hset : map.test j = true := by simpa [canSet, hlt] using h
    simp [hset]
  · simp [hj]

theorem setFrom_spec (count start newly : Nat) {map : Bitmap} (h : map.WellFormed) :
    (setFrom count start newly map).2.WellFormed ∧
      (setFrom count start newly map).2.bitCount = map.bitCount ∧
      ∀ j, (setFrom count start newly map).2.test j =
        (map.test j || decide (start ≤ j ∧ j < start + count ∧ j < map.bitCount)) := by
  induction count generalizing start newly map with
  | zero =>
    refine ⟨h, rfl, ?_⟩
    intro j
    have hempty : ¬ (start ≤ j ∧ j < start + 0 ∧ j < map.bitCount) := by omega
    rw [decide_eq_false hempty, Bool.or_false, setFrom]
  | succ count ih =>
    -- The first bit of the range is `start`; the rest of the range is the induction's.
    have hjoin : ∀ j, (decide (j = start ∧ start < map.bitCount) ||
          decide (start + 1 ≤ j ∧ j < start + 1 + count ∧ j < map.bitCount)) =
        decide (start ≤ j ∧ j < start + (count + 1) ∧ j < map.bitCount) := by
      intro j
      rw [← Bool.decide_or]
      exact decide_eq_decide.2 (by omega)
    rw [setFrom]
    split
    · obtain ⟨hwf, hcount, htest⟩ := ih (start + 1) (newly + 1) (h.set start)
      refine ⟨hwf, by rw [hcount, bitCount_set], ?_⟩
      intro j
      rw [htest, bitCount_set, h.test_set, Bool.or_assoc, hjoin]
    · rename_i hcan
      obtain ⟨hwf, hcount, htest⟩ := ih (start + 1) newly h
      refine ⟨hwf, hcount, ?_⟩
      intro j
      rw [htest, ← hjoin, ← Bool.or_assoc, test_or_of_not_canSet (Bool.eq_false_iff.2 hcan)]

/-- A range adds exactly its bits, those past the end left out. -/
theorem WellFormed.test_setRange {map : Bitmap} (h : map.WellFormed) (start count j : Nat) :
    (map.setRange start count).2.test j =
      (map.test j || decide (start ≤ j ∧ j < start + count ∧ j < map.bitCount)) := by
  rw [setRange, (setFrom_spec _ _ _ h).2.2]
  congr 1
  exact decide_eq_decide.2 (by omega)

theorem WellFormed.setRange {map : Bitmap} (h : map.WellFormed) (start count : Nat) :
    (map.setRange start count).2.WellFormed :=
  (setFrom_spec _ _ _ h).1

theorem WellFormed.bitCount_setRange {map : Bitmap} (h : map.WellFormed) (start count : Nat) :
    (map.setRange start count).2.bitCount = map.bitCount :=
  (setFrom_spec _ _ _ h).2.1

/-! ## Inverting -/

theorem testBit_not (b : UInt8) {k : Nat} (hk : k < 8) :
    (~~~ b).toNat.testBit k = !b.toNat.testBit k := by
  have hflip := Nat.testBit_two_pow_sub_succ b.toNat_lt k
  rw [UInt8.toNat_not, show UInt8.size - 1 - b.toNat = 2 ^ 8 - (b.toNat + 1) by
    simp only [UInt8.size]; omega, hflip]
  simp [hk]

/-- The bits below `k`, and no others. -/
theorem testBit_low (b : UInt8) {k : Nat} (hk : k < 8) (i : Nat) :
    (b &&& UInt8.ofNat ((1 <<< k) - 1)).toNat.testBit i =
      (b.toNat.testBit i && decide (i < k)) := by
  have hfit : (1 <<< k) - 1 < 256 := by
    have := Nat.pow_lt_pow_right (a := 2) (by omega) hk
    rw [Nat.one_shiftLeft]; omega
  rw [UInt8.toNat_and, Nat.testBit_and, UInt8.toNat_ofNat', Nat.mod_eq_of_lt hfit,
    Nat.one_shiftLeft, Nat.testBit_two_pow_sub_one]

@[simp] theorem bitCount_invert (map : Bitmap) : map.invert.bitCount = map.bitCount := rfl

theorem size_trim (bitCount : Nat) (bytes : Array UInt8) :
    (trim bitCount bytes).size = bytes.size := by
  unfold trim
  split <;> simp

/-- The bytes of an inverted map: each one flipped, and the last one cut at the end. -/
theorem byteOf_invert (map : Bitmap) {i : Nat} (hi : i / 8 < map.bytes.size) :
    map.invert.byteOf i =
      if map.bitCount % 8 = 0 ∨ i / 8 ≠ map.bytes.size - 1 then ~~~ map.byteOf i
      else ~~~ map.byteOf i &&& UInt8.ofNat ((1 <<< (map.bitCount % 8)) - 1) := by
  have hbyte : map.bytes[i / 8]? = some (map.byteOf i) := by
    rw [byteOf, Array.getD_eq_getD_getElem?, Array.getElem?_eq_getElem hi, Option.getD_some]
  have hflip : (map.bytes.map (~~~ ·))[i / 8]? = some (~~~ map.byteOf i) := by
    rw [Array.getElem?_map, hbyte, Option.map_some]
  rw [byteOf, invert, trim, Array.getD_eq_getD_getElem?]
  by_cases hwhole : map.bitCount % 8 = 0
  · rw [if_pos hwhole, if_pos (.inl hwhole), hflip, Option.getD_some]
  · rw [if_neg hwhole, Array.getElem?_modify, Array.size_map, hflip]
    by_cases hlast : i / 8 = map.bytes.size - 1
    · rw [if_pos hlast.symm, if_neg (by simp [hwhole, hlast]), Option.map_some, Option.getD_some]
    · rw [if_neg (Ne.symm hlast), if_pos (.inr hlast), Option.getD_some]

/-- What an inverted map stores: the flipped bits below the end, and nothing past it. -/
theorem WellFormed.stored_invert {map : Bitmap} (h : map.WellFormed) (i : Nat) :
    map.invert.stored i = (decide (i < map.bitCount) && !map.stored i) := by
  have hsize := h.size_eq
  by_cases hi : i / 8 < map.bytes.size
  · rw [stored, byteOf_invert map hi]
    split
    · -- A byte that is kept whole lies below the end altogether.
      have hlt : i < map.bitCount := by omega
      rw [testBit_not _ (by omega)]
      simp [hlt, stored]
    · rename_i hlast
      have hcut : i % 8 < map.bitCount % 8 ↔ i < map.bitCount := by omega
      rw [testBit_low _ (by omega), testBit_not _ (by omega), decide_eq_decide.2 hcut,
        Bool.and_comm]
      rfl
  · have hnone : map.invert.byteOf i = 0 := by
      rw [byteOf, Array.getD_eq_getD_getElem?, Array.getElem?_eq_none, Option.getD_none]
      rw [invert, size_trim, Array.size_map]
      omega
    have hlt : ¬ i < map.bitCount := by omega
    simp [stored, hnone, hlt]

/-- Inverting flips exactly the bits below the end. -/
theorem WellFormed.test_invert {map : Bitmap} (h : map.WellFormed) (i : Nat) :
    map.invert.test i = (decide (i < map.bitCount) && !map.test i) := by
  rw [test_eq, bitCount_invert, h.stored_invert, h.stored_eq, ← Bool.and_assoc, Bool.and_self]

theorem WellFormed.invert {map : Bitmap} (h : map.WellFormed) : map.invert.WellFormed where
  size_eq := by rw [Bitmap.invert, size_trim, Array.size_map, h.size_eq]
  padding := by
    intro i hi
    rw [bitCount_invert] at hi
    simp [h.stored_invert, Nat.not_lt.2 hi]

end DiskScope.Bitmap
