/-
  DiskScope/Proofs/Xfs/Geometry.lean --- which geometries an image has room for.

  WHAT THIS FILE IS FOR.  Three fields of a superblock say how large the filesystem is: the
  blocks of a group, the number of groups and the number of blocks.  None can be
  trusted, and all later addresses are products of them.  Fitting checks them against
  each other and against the image.  Here it is said when that succeeds, and what it
  buys: every group begins inside the blocks, and the blocks lie inside the image.

  THE CEILING.  Only the last group may be short, so that the number of groups is the
  number of blocks divided by the size of a group, rounded up.

  MAIN STATEMENTS.

      fit_eq_ok_iff       when fitting succeeds, and with which superblock
      fit_addressable     what a fitted superblock can be relied on for
-/
import DiskScope.Proofs.Traced.Outcome
import DiskScope.Xfs.Superblock
import Mathlib.Algebra.Order.Floor.Div

set_option autoImplicit false

namespace DiskScope.Xfs.Superblock

variable {sb fitted : Superblock} {location : String} {imageSize : Nat} {mode : Mode}

/-! ## One check at a time -/

theorem requireNonzero_eq_ok_iff {field : String} {value : Nat} :
    requireNonzero location field value = .ok () ↔ 1 ≤ value := by
  unfold requireNonzero
  split
  · rename_i hzero
    simp [hzero]
  · rename_i hne
    simp [Nat.one_le_iff_ne_zero, hne]

theorem ceilDiv_eq (a b : Nat) : ceilDiv a b = a ⌈/⌉ b :=
  (Nat.ceilDiv_eq_add_pred_div a b).symm

theorem requireGroups_eq_ok_iff :
    sb.requireGroups location = .ok () ↔ sb.agCount ≤ sb.blocks ⌈/⌉ sb.agBlocks := by
  unfold requireGroups
  rw [ceilDiv_eq]
  dsimp only
  split
  · rename_i hfew
    simp [Nat.not_le.2 hfew]
  · rename_i henough
    simp [Nat.not_lt.1 henough]

/-- The number of blocks is one that the groups and the image can hold. -/
def HoldsBlocks (sb : Superblock) (imageSize : Nat) : Prop :=
  1 ≤ sb.blocks ∧ sb.blocks ≤ min (sb.agCount * sb.agBlocks) (imageSize / sb.blockSize)

instance (sb : Superblock) (imageSize : Nat) : Decidable (sb.HoldsBlocks imageSize) :=
  inferInstanceAs (Decidable (_ ∧ _))

/-- The number of blocks that is left to work with: the recorded one if it can be held, else as many
as can. -/
def heldBlocks (sb : Superblock) (imageSize : Nat) : Nat :=
  if sb.HoldsBlocks imageSize then sb.blocks
  else min (sb.agCount * sb.agBlocks) (imageSize / sb.blockSize)

theorem blockLimit_eq (hsize : 1 ≤ sb.blockSize) :
    sb.blockLimit imageSize = min (sb.agCount * sb.agBlocks) (imageSize / sb.blockSize) := by
  rw [blockLimit, Nat.max_eq_left hsize]

theorem heldBlocks_le : sb.heldBlocks imageSize ≤
    min (sb.agCount * sb.agBlocks) (imageSize / sb.blockSize) := by
  unfold heldBlocks
  split
  · rename_i hheld
    exact hheld.2
  · exact Nat.le_refl _

theorem clampBlocks_of_held (hsize : 1 ≤ sb.blockSize) (hheld : sb.HoldsBlocks imageSize) :
    sb.clampBlocks location imageSize mode = pure sb := by
  rw [HoldsBlocks, ← blockLimit_eq hsize] at hheld
  exact if_pos hheld

theorem clampBlocks_strict (hsize : 1 ≤ sb.blockSize) (hpast : ¬ sb.HoldsBlocks imageSize) :
    (sb.clampBlocks location imageSize .strict).outcome =
      .error (.geometryOutOfRange location "dblocks" sb.blocks 1 (sb.blockLimit imageSize)) := by
  rw [HoldsBlocks, ← blockLimit_eq hsize] at hpast
  unfold clampBlocks
  dsimp only
  rw [if_neg hpast]
  rfl

theorem clampBlocks_bestEffort (hsize : 1 ≤ sb.blockSize) (hpast : ¬ sb.HoldsBlocks imageSize) :
    (sb.clampBlocks location imageSize .bestEffort).outcome =
      .ok { sb with blocks := sb.blockLimit imageSize } := by
  rw [HoldsBlocks, ← blockLimit_eq hsize] at hpast
  unfold clampBlocks
  dsimp only
  rw [if_neg hpast]
  rfl

/-- Clamping changes at most the number of blocks, and only a lenient run changes it. -/
theorem clampBlocks_eq_ok_iff (hsize : 1 ≤ sb.blockSize) :
    (sb.clampBlocks location imageSize mode).outcome = .ok fitted ↔
      (sb.HoldsBlocks imageSize ∨ mode = .bestEffort) ∧
        fitted = { sb with blocks := sb.heldBlocks imageSize } := by
  by_cases hheld : sb.HoldsBlocks imageSize
  · have hblocks : sb.heldBlocks imageSize = sb.blocks := if_pos hheld
    rw [clampBlocks_of_held hsize hheld, hblocks]
    simp only [Traced.pure_def, Except.ok.injEq, hheld, true_or, true_and]
    exact eq_comm
  · have hblocks : sb.heldBlocks imageSize = sb.blockLimit imageSize :=
      (if_neg hheld).trans (blockLimit_eq hsize).symm
    cases mode with
    | strict =>
      rw [clampBlocks_strict hsize hheld]
      simp [hheld]
    | bestEffort =>
      rw [clampBlocks_bestEffort hsize hheld, hblocks]
      simp only [Except.ok.injEq, or_true, true_and]
      exact eq_comm

/-- Fitting succeeds exactly when there are groups, the blocks fill them, and the number of blocks
can be held or may be clamped. -/
theorem fit_eq_ok_iff (hsize : 1 ≤ sb.blockSize) :
    (sb.fit location imageSize mode).outcome = .ok fitted ↔
      1 ≤ sb.agBlocks ∧ 1 ≤ sb.agCount ∧ (sb.HoldsBlocks imageSize ∨ mode = .bestEffort) ∧
        sb.agCount ≤ sb.heldBlocks imageSize ⌈/⌉ sb.agBlocks ∧
          fitted = { sb with blocks := sb.heldBlocks imageSize } := by
  unfold fit
  constructor
  · intro h
    obtain ⟨_, hblocks, h⟩ := Traced.bind_eq_ok.1 h
    obtain ⟨_, hcount, h⟩ := Traced.bind_eq_ok.1 h
    obtain ⟨clamped, hclamp, h⟩ := Traced.bind_eq_ok.1 h
    obtain ⟨_, hgroups, h⟩ := Traced.bind_eq_ok.1 h
    obtain rfl : clamped = fitted := Except.ok.inj h
    obtain ⟨hmode, rfl⟩ := (clampBlocks_eq_ok_iff hsize).1 hclamp
    exact ⟨requireNonzero_eq_ok_iff.1 hblocks, requireNonzero_eq_ok_iff.1 hcount, hmode,
      requireGroups_eq_ok_iff.1 hgroups, rfl⟩
  · rintro ⟨hblocks, hcount, hmode, hgroups, rfl⟩
    refine Traced.bind_eq_ok.2 ⟨(), requireNonzero_eq_ok_iff.2 hblocks, ?_⟩
    refine Traced.bind_eq_ok.2 ⟨(), requireNonzero_eq_ok_iff.2 hcount, ?_⟩
    refine Traced.bind_eq_ok.2 ⟨_, (clampBlocks_eq_ok_iff hsize).2 ⟨hmode, rfl⟩, ?_⟩
    exact Traced.bind_eq_ok.2 ⟨(), requireGroups_eq_ok_iff.2 hgroups, rfl⟩

/-- A geometry that needs no clamping is accepted as it is. -/
theorem fit_of_held (hsize : 1 ≤ sb.blockSize) (hblocks : 1 ≤ sb.agBlocks) (hcount : 1 ≤ sb.agCount)
    (hheld : sb.HoldsBlocks imageSize) (hgroups : sb.agCount ≤ sb.blocks ⌈/⌉ sb.agBlocks) :
    (sb.fit location imageSize mode).outcome = .ok sb := by
  have hsame : sb.heldBlocks imageSize = sb.blocks := if_pos hheld
  exact (fit_eq_ok_iff hsize).2
    ⟨hblocks, hcount, .inl hheld, by rw [hsame]; exact hgroups, by rw [hsame]⟩

/-! ## What it buys -/

/-- What can be relied on once `sb` was fitted to an image of `imageSize` bytes. -/
structure Fitted (sb fitted : Superblock) (imageSize : Nat) : Prop where
  /-- Nothing but the number of blocks has changed. -/
  eq_held : fitted = { sb with blocks := sb.heldBlocks imageSize }
  blocks_pos : 1 ≤ fitted.blocks
  /-- The blocks lie inside the image. -/
  inside : fitted.blocks * fitted.blockSize ≤ imageSize
  /-- Only the last group can be short. -/
  agCount_eq : fitted.agCount = fitted.blocks ⌈/⌉ fitted.agBlocks
  /-- Every group begins inside the blocks. -/
  groupOffset_lt : ∀ agno < fitted.agCount,
    fitted.groupOffset agno < fitted.blocks * fitted.blockSize
  /-- So it begins at a 64-bit address if the size of the image is one. -/
  groupOffset_word : imageSize < 2 ^ 64 → ∀ agno < fitted.agCount,
    fitted.groupOffset agno < 2 ^ 64
  /-- The text is of the bytes on the disk. -/
  render_eq : fitted.render = sb.render
  /-- Fitting it again finds nothing to do. -/
  refit : ∀ location, (fitted.fit location imageSize .strict).outcome = .ok fitted

theorem group_lt_blocks {agno agBlocks blocks : Nat} (hpos : 1 ≤ agBlocks)
    (h : agno < blocks ⌈/⌉ agBlocks) : agno * agBlocks < blocks := by
  rw [← not_le, ceilDiv_le_iff_le_mul hpos, not_le] at h
  rwa [Nat.mul_comm] at h

theorem fitted_of_ok (hsize : 1 ≤ sb.blockSize)
    (h : (sb.fit location imageSize mode).outcome = .ok fitted) : Fitted sb fitted imageSize := by
  obtain ⟨hblocks, hcount, _, hgroups, rfl⟩ := (fit_eq_ok_iff hsize).1 h
  have hlt : ∀ agno < sb.agCount, agno * sb.agBlocks < sb.heldBlocks imageSize :=
    fun agno hagno => group_lt_blocks hblocks (Nat.lt_of_lt_of_le hagno hgroups)
  -- The first group begins at block zero, so there is such a block.
  have hpos : 1 ≤ sb.heldBlocks imageSize := by
    have := hlt 0 hcount
    omega
  have hinside : sb.heldBlocks imageSize * sb.blockSize ≤ imageSize :=
    calc sb.heldBlocks imageSize * sb.blockSize
        ≤ imageSize / sb.blockSize * sb.blockSize :=
          Nat.mul_le_mul_right _ (Nat.le_trans heldBlocks_le (Nat.min_le_right _ _))
      _ ≤ imageSize := Nat.div_mul_le_self _ _
  have hoffset : ∀ agno < sb.agCount,
      sb.groupOffset agno < sb.heldBlocks imageSize * sb.blockSize := fun agno hagno =>
    Nat.mul_lt_mul_of_pos_right (hlt agno hagno) hsize
  have hfull : sb.heldBlocks imageSize ⌈/⌉ sb.agBlocks ≤ sb.agCount := by
    rw [ceilDiv_le_iff_le_mul hblocks, Nat.mul_comm]
    exact Nat.le_trans heldBlocks_le (Nat.min_le_left _ _)
  refine ⟨rfl, hpos, hinside, Nat.le_antisymm hgroups hfull, hoffset, ?_, rfl, ?_⟩
  · intro hword agno hagno
    exact Nat.lt_trans (Nat.lt_of_lt_of_le (hoffset agno hagno) hinside) hword
  · intro location
    exact fit_of_held hsize hblocks hcount ⟨hpos, heldBlocks_le⟩ hgroups

/-- Fitting accepts exactly the geometries that the image has room for, where a lenient run may cut
the number of blocks; and what it accepts can be addressed. -/
theorem fit_addressable (sb : Superblock) (location : String) (imageSize : Nat) (mode : Mode)
    (hsize : 1 ≤ sb.blockSize) :
    ((∃ fitted, (sb.fit location imageSize mode).outcome = .ok fitted) ↔
      1 ≤ sb.agBlocks ∧ 1 ≤ sb.agCount ∧ (sb.HoldsBlocks imageSize ∨ mode = .bestEffort) ∧
        sb.agCount ≤ sb.heldBlocks imageSize ⌈/⌉ sb.agBlocks) ∧
    (∀ fitted, (sb.fit location imageSize mode).outcome = .ok fitted →
      Fitted sb fitted imageSize) ∧
    (∀ fitted, (sb.fit location imageSize .strict).outcome = .ok fitted → fitted = sb) := by
  refine ⟨⟨?_, ?_⟩, fun fitted => fitted_of_ok hsize, ?_⟩
  · rintro ⟨fitted, h⟩
    obtain ⟨hblocks, hcount, hmode, hgroups, _⟩ := (fit_eq_ok_iff hsize).1 h
    exact ⟨hblocks, hcount, hmode, hgroups⟩
  · rintro ⟨hblocks, hcount, hmode, hgroups⟩
    exact ⟨_, (fit_eq_ok_iff hsize).2 ⟨hblocks, hcount, hmode, hgroups, rfl⟩⟩
  · intro fitted h
    obtain ⟨_, _, hmode, _, rfl⟩ := (fit_eq_ok_iff hsize).1 h
    have hheld : sb.HoldsBlocks imageSize := hmode.resolve_right (by decide)
    rw [heldBlocks, if_pos hheld]

/-- Three groups of eight blocks of 512 bytes, whose superblock tells of a hundred blocks. -/
def boastful : Superblock :=
  { (default : Superblock) with blockSize := 512, agBlocks := 8, agCount := 3, blocks := 100 }

/-- In an image of twenty blocks a lenient run cuts the hundred to twenty, and the third group is
short. -/
theorem boastful_fitted :
    1 ≤ boastful.blockSize ∧ ∃ fitted, (boastful.fit "disk" 10240 .bestEffort).outcome = .ok fitted ∧
      Fitted boastful fitted 10240 ∧ fitted.blocks = 20 := by
  have hsize : 1 ≤ boastful.blockSize := by decide
  obtain ⟨haccepts, hfitted, _⟩ := fit_addressable boastful "disk" 10240 .bestEffort hsize
  have hheld : boastful.heldBlocks 10240 = 20 := by decide
  have hgroups : boastful.agCount ≤ boastful.heldBlocks 10240 ⌈/⌉ boastful.agBlocks := by
    rw [hheld, Nat.ceilDiv_eq_add_pred_div]
    decide
  obtain ⟨fitted, h⟩ := haccepts.2 ⟨by decide, by decide, .inr rfl, hgroups⟩
  exact ⟨hsize, fitted, h, hfitted fitted h, by rw [(hfitted fitted h).eq_held]; exact hheld⟩

end DiskScope.Xfs.Superblock
