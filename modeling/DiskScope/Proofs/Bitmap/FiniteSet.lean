/-
  DiskScope/Proofs/Bitmap/FiniteSet.lean --- a bitmap stands for a finite set.

  WHAT THIS FILE IS FOR.  `Members` says bit by bit what each operation does.  Here the
  bits are taken together, as the finite set `members`, so that they can be counted:
  counting whole bytes gives the size of the set, and setting a range answers by how
  much the set has grown.

  THE REFERENCE.  `Edit` is one operation of either side.  `edited` does a list of them to
  a blank map, `reference` does the same to the empty set with the operations of sets
  alone, and `Represents` is what a map and a set have to agree on.

  MAIN STATEMENTS.

      count_eq_card        counting whole bytes counts the members
      edited_represents    after any operations a map stands for its reference set
-/
import DiskScope.Proofs.Bitmap.Members
import Mathlib.Algebra.Order.Floor.Div
import Mathlib.Data.Finset.Card
import Mathlib.Order.Interval.Finset.Nat

set_option autoImplicit false

namespace DiskScope.Bitmap

/-! ## Members -/

/-- The set bits, as a finite set. -/
def members (map : Bitmap) : Finset Nat :=
  (Finset.range map.bitCount).filter fun i => map.test i = true

theorem mem_members {map : Bitmap} {i : Nat} : i ∈ map.members ↔ map.test i = true := by
  rw [members, Finset.mem_filter, Finset.mem_range]
  exact and_iff_right_of_imp lt_of_test

theorem card_members (map : Bitmap) :
    map.members.card = (List.range map.bitCount).countP map.test := by
  have hfilter : map.members.card =
      ((List.range map.bitCount).filter fun i => decide (map.test i = true)).length := rfl
  rw [hfilter, List.countP_eq_length_filter]
  simp only [Bool.decide_eq_true]

/-! ## Counting -/

theorem stored_of_lt (map : Bitmap) {k j : Nat} (hk : k < map.bytes.size) (hj : j < 8) :
    map.stored (8 * k + j) = map.bytes[k].toNat.testBit j := by
  have hdiv : (8 * k + j) / 8 = k := by omega
  have hmod : (8 * k + j) % 8 = j := by omega
  rw [stored, byteOf, hdiv, hmod, Array.getD_eq_getD_getElem?, Array.getElem?_eq_getElem hk,
    Option.getD_some]

/-- The set bits of the first `k` bytes are counted byte by byte. -/
theorem countP_stored (map : Bitmap) {k : Nat} (hk : k ≤ map.bytes.size) :
    (List.range (8 * k)).countP map.stored = ((map.bytes.toList.take k).map byteCount).sum := by
  induction k with
  | zero => rfl
  | succ k ih =>
    -- One more byte is eight more bits, counted from the first of them.
    have hlt : k < map.bytes.toList.length := by rw [Array.length_toList]; omega
    have hlast : ((List.range 8).map fun j => 8 * k + j).countP map.stored =
        byteCount map.bytes[k] := by
      rw [List.countP_map, byteCount]
      refine List.countP_congr fun j hj => ?_
      rw [Function.comp_apply, map.stored_of_lt hk (List.mem_range.1 hj)]
    rw [Nat.mul_succ, List.range_add, List.countP_append, ih (Nat.le_of_succ_le hk), hlast,
      List.take_succ_eq_append_getElem hlt, List.map_append, List.sum_append]
    simp

theorem count_eq_sum (map : Bitmap) : map.count = (map.bytes.toList.map byteCount).sum := by
  rw [count, ← Array.foldl_toList, List.sum_eq_foldl, List.foldl_map]

/-- Counting whole bytes counts the set bits, since the rest of the last byte is clear. -/
theorem WellFormed.count_eq_card {map : Bitmap} (h : map.WellFormed) :
    map.count = map.members.card := by
  have hwhole : map.bytes.toList.take map.bytes.size = map.bytes.toList :=
    List.take_of_length_le (Nat.le_of_eq Array.length_toList)
  -- The bits of all bytes are those of the map and then the padding.
  obtain ⟨padding, hpadding⟩ : ∃ padding, 8 * map.bytes.size = map.bitCount + padding :=
    Nat.exists_eq_add_of_le (by rw [h.size_eq]; omega)
  have hclear : ((List.range padding).map fun j => map.bitCount + j).countP map.stored = 0 := by
    rw [List.countP_eq_zero]
    intro i hi
    obtain ⟨j, _, rfl⟩ := List.mem_map.1 hi
    rw [h.padding _ (Nat.le_add_right _ _)]
    exact Bool.false_ne_true
  have hbits := map.countP_stored (Nat.le_refl map.bytes.size)
  rw [hwhole, ← count_eq_sum, hpadding, List.range_add, List.countP_append, hclear,
    Nat.add_zero] at hbits
  rw [card_members, ← hbits]
  refine List.countP_congr fun i _ => ?_
  rw [h.stored_eq]

theorem WellFormed.eq_of_test_iff {map other : Bitmap} (h : map.WellFormed) (h' : other.WellFormed)
    (hcount : map.bitCount = other.bitCount)
    (htest : ∀ i, map.test i = true ↔ other.test i = true) : map = other := by
  have hstored : ∀ i, map.stored i = other.stored i := by
    intro i
    rw [h.stored_eq, h'.stored_eq, Bool.eq_iff_iff, htest]
  have hsize : map.bytes.size = other.bytes.size := by rw [h.size_eq, h'.size_eq, hcount]
  have hbytes : map.bytes = other.bytes := by
    refine Array.ext hsize fun k hk hk' => UInt8.toNat_inj.1 (Nat.eq_of_testBit_eq fun j => ?_)
    -- Two bytes agree past their eight bits whatever the maps are.
    by_cases hj : j < 8
    · rw [← map.stored_of_lt hk hj, ← other.stored_of_lt hk' hj, hstored]
    · have hpast : ∀ b : UInt8, b.toNat.testBit j = false := fun b =>
        Nat.testBit_lt_two_pow (Nat.lt_of_lt_of_le b.toNat_lt
          (Nat.pow_le_pow_right (by decide) (Nat.not_lt.1 hj)))
      rw [hpast, hpast]
  cases map
  cases other
  simp only at hcount hbytes
  rw [hcount, hbytes]

/-! ## What each operation does -/

@[simp] theorem members_blank (bitCount : Nat) : (blank bitCount).members = ∅ := by
  refine Finset.eq_empty_of_forall_notMem fun i hi => ?_
  rw [mem_members, test_blank] at hi
  cases hi

theorem canSet_eq_true_iff {map : Bitmap} {i : Nat} :
    map.canSet i = true ↔ i < map.bitCount ∧ i ∉ map.members := by
  simp [canSet, mem_members]

/-- The numbers of a range that a map of `bitCount` bits has. -/
def span (bitCount start count : Nat) : Finset Nat :=
  (Finset.Ico start (start + count)).filter (· < bitCount)

theorem mem_span {bitCount start count i : Nat} :
    i ∈ span bitCount start count ↔ start ≤ i ∧ i < start + count ∧ i < bitCount := by
  rw [span, Finset.mem_filter, Finset.mem_Ico, and_assoc]

theorem WellFormed.members_set {map : Bitmap} (h : map.WellFormed) {i : Nat}
    (hi : i < map.bitCount) : (map.set i).members = insert i map.members := by
  ext j
  rw [mem_members, h.test_set, Finset.mem_insert, mem_members, Bool.or_eq_true, decide_eq_true_eq,
    and_iff_left hi]
  exact or_comm

theorem WellFormed.members_setRange {map : Bitmap} (h : map.WellFormed) (start count : Nat) :
    (map.setRange start count).2.members = map.members ∪ span map.bitCount start count := by
  ext i
  rw [mem_members, h.test_setRange, Finset.mem_union, mem_members, mem_span, Bool.or_eq_true,
    decide_eq_true_eq]

theorem WellFormed.members_invert {map : Bitmap} (h : map.WellFormed) :
    map.invert.members = Finset.range map.bitCount \ map.members := by
  ext i
  rw [mem_members, h.test_invert, Finset.mem_sdiff, Finset.mem_range, mem_members]
  simp

/-- The answer of a range grows by as many as the set does. -/
theorem card_setFrom (count start newly : Nat) {map : Bitmap} (h : map.WellFormed) :
    (setFrom count start newly map).1 + map.members.card =
      newly + (setFrom count start newly map).2.members.card := by
  induction count generalizing start newly map with
  | zero => rfl
  | succ count ih =>
    rw [setFrom]
    split
    · rename_i hcan
      obtain ⟨hlt, hnew⟩ := canSet_eq_true_iff.1 hcan
      have hrest := ih (start + 1) (newly + 1) (h.set start)
      rw [h.members_set hlt, Finset.card_insert_of_notMem hnew] at hrest
      omega
    · exact ih (start + 1) newly h

/-- A range answers how many of its bits were not set before. -/
theorem WellFormed.answer_setRange {map : Bitmap} (h : map.WellFormed) (start count : Nat) :
    (map.setRange start count).1 = (span map.bitCount start count \ map.members).card := by
  have hgrows := card_setFrom (min (start + count) map.bitCount - start) start 0 h
  have hmembers := h.members_setRange start count
  rw [Bitmap.setRange] at hmembers ⊢
  rw [Nat.zero_add, hmembers, Finset.union_comm, ← Finset.card_sdiff_add_card] at hgrows
  exact Nat.add_right_cancel hgrows

/-! ## Any number of operations -/

/-- An operation on a map. -/
inductive Edit where
  | set (i : Nat)
  | setRange (start count : Nat)
  | invert
  deriving DecidableEq, Repr, Inhabited

namespace Edit

/-- The operation on a map. -/
def apply (map : Bitmap) : Edit → Bitmap
  | set i => map.set i
  | setRange start count => (map.setRange start count).2
  | invert => map.invert

/-- The operation on a set of numbers below `bitCount`. -/
def onSet (bitCount : Nat) (bits : Finset Nat) : Edit → Finset Nat
  | set i => if i < bitCount then insert i bits else bits
  | setRange start count => bits ∪ span bitCount start count
  | invert => Finset.range bitCount \ bits

end Edit

/-- The map that a list of operations makes of a blank one. -/
def edited (bitCount : Nat) (edits : List Edit) : Bitmap :=
  edits.foldl Edit.apply (blank bitCount)

/-- The set that the same operations make of the empty one. -/
def reference (bitCount : Nat) (edits : List Edit) : Finset Nat :=
  edits.foldl (Edit.onSet bitCount) ∅

/-- One operation keeps a map well-formed and its size, and does to its members what it does to a
set. -/
theorem WellFormed.apply {map : Bitmap} (h : map.WellFormed) (edit : Edit) :
    (edit.apply map).WellFormed ∧ (edit.apply map).bitCount = map.bitCount ∧
      (edit.apply map).members = edit.onSet map.bitCount map.members := by
  cases edit with
  | set i =>
    refine ⟨h.set i, bitCount_set map i, ?_⟩
    simp only [Edit.apply, Edit.onSet]
    split
    · rename_i hlt
      exact h.members_set hlt
    · rename_i hpast
      rw [Bitmap.set, if_neg hpast]
  | setRange start count =>
    exact ⟨h.setRange start count, h.bitCount_setRange start count, h.members_setRange start count⟩
  | invert => exact ⟨h.invert, rfl, h.members_invert⟩

theorem WellFormed.foldl_apply {map : Bitmap} (h : map.WellFormed) (edits : List Edit) :
    (edits.foldl Edit.apply map).WellFormed ∧
      (edits.foldl Edit.apply map).bitCount = map.bitCount ∧
        (edits.foldl Edit.apply map).members =
          edits.foldl (Edit.onSet map.bitCount) map.members := by
  induction edits generalizing map with
  | nil => exact ⟨h, rfl, rfl⟩
  | cons edit rest ih =>
    obtain ⟨hwf, hcount, hmembers⟩ := h.apply edit
    obtain ⟨hwf', hcount', hmembers'⟩ := ih hwf
    rw [hcount, hmembers] at hmembers'
    exact ⟨hwf', hcount'.trans hcount, hmembers'⟩

/-- The map stands for a set of numbers below `bitCount`, and everything that it answers is about that
set. -/
structure Represents (map : Bitmap) (bitCount : Nat) (bits : Finset Nat) : Prop where
  bitCount_eq : map.bitCount = bitCount
  /-- Just enough bytes. -/
  size_eq : map.bytes.size = bitCount ⌈/⌉ 8
  /-- The bits past the end are clear. -/
  padding : ∀ i, bitCount ≤ i → map.stored i = false
  test_iff : ∀ i, map.test i = true ↔ i ∈ bits
  /-- Setting a bit tells whether it is a new one. -/
  canSet_iff : ∀ i, map.canSet i = true ↔ i < bitCount ∧ i ∉ bits
  /-- Setting a range tells how many new ones there are. -/
  answer_eq : ∀ start count, (map.setRange start count).1 =
    ((Edit.setRange start count).onSet bitCount bits \ bits).card
  /-- Counting gives the number of members. -/
  count_eq : map.count = bits.card

theorem WellFormed.represents {map : Bitmap} (h : map.WellFormed) :
    map.Represents map.bitCount map.members := by
  refine ⟨rfl, ?_, h.padding, fun i => mem_members.symm, fun i => canSet_eq_true_iff, ?_,
    h.count_eq_card⟩
  · rw [h.size_eq, Nat.ceilDiv_eq_add_pred_div]
    rfl
  · intro start count
    rw [h.answer_setRange, Edit.onSet, Finset.union_sdiff_left]

/-- Whatever is done to a blank map, it stands for the set that the same operations make of the
empty one. -/
theorem edited_represents (bitCount : Nat) (edits : List Edit) :
    (edited bitCount edits).Represents bitCount (reference bitCount edits) := by
  obtain ⟨hwf, hcount, hmembers⟩ := (wellFormed_blank bitCount).foldl_apply edits
  have hrepresents := hwf.represents
  rw [hcount, hmembers, members_blank] at hrepresents
  exact hrepresents

/-- The last two of ten bits are set, and then the range from bit 7 on adds only bit 7. -/
example : ((edited 10 [.setRange 8 5]).setRange 7 2).1 = 1 := by decide

end DiskScope.Bitmap
