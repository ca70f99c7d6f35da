/-
  DiskScope/Proofs/Xfs/Opened.lean --- what is known of an opened filesystem.

  WHAT THIS FILE IS FOR.  Opening goes through many checks.  This file keeps what they
  leave behind: where the parts of a `Volume` come from, that nothing in it has size
  zero, and that only the number of blocks may differ from what the disk says.

  MAIN STATEMENTS.

      detect_ok           the parts of an opened volume, step by step
      fitted_of_detect    its superblock is one of the disk, fitted to the image
      block_le_size       each of its blocks lies inside the image
-/
import DiskScope.Proofs.Xfs.Geometry
import DiskScope.Xfs.Volume

set_option autoImplicit false

namespace DiskScope.Xfs

namespace Volume

variable {image : Image} {mode : Mode}

/-- Every check that a superblock has passed when it is read. -/
theorem readSuperblock_ok {sb : Superblock} (h : (readSuperblock image mode).outcome = .ok sb) :
    ∃ raw disk, image.read 0 superblockRead = .ok raw ∧ Superblock.ofBytes raw = .ok disk ∧
      (disk.validate primary mode).outcome = .ok () ∧ disk.blockSize ≠ 0 ∧ disk.sectorSize ≠ 0 ∧
        (disk.fit primary image.size mode).outcome = .ok sb := by
  unfold readSuperblock at h
  obtain ⟨raw, hraw, h⟩ := Traced.bind_eq_ok.1 h
  obtain ⟨disk, hdisk, h⟩ := Traced.bind_eq_ok.1 h
  obtain ⟨_, hvalid, h⟩ := Traced.bind_eq_ok.1 h
  obtain ⟨_, hblock, h⟩ := Traced.bind_eq_ok.1 h
  obtain ⟨_, hsector, h⟩ := Traced.bind_eq_ok.1 h
  have hnonzero : ∀ {pair : Superblock.SizePair} {u : Unit},
      requireSize pair = .ok u → pair.size ≠ 0 := by
    intro pair u hok hzero
    rw [requireSize, if_pos hzero] at hok
    cases hok
  exact ⟨raw, disk, hraw, hdisk, hvalid, hnonzero hblock, hnonzero hsector, h⟩

theorem detect_ok {volume : Volume} (h : (detect image mode).outcome = .ok volume) :
    (readSuperblock image mode).outcome = .ok volume.sb ∧
      volume.reader = ⟨image, volume.sb.blockSize⟩ ∧ volume.mode = mode ∧
        (Group.loadAll volume.reader volume.sb mode).outcome = .ok volume.groups := by
  unfold detect at h
  obtain ⟨sb, hsb, h⟩ := Traced.bind_eq_ok.1 h
  obtain ⟨_, _, h⟩ := Traced.bind_eq_ok.1 h
  obtain ⟨groups, hgroups, h⟩ := Traced.bind_eq_ok.1 h
  obtain rfl := Except.ok.inj h
  exact ⟨hsb, rfl, rfl, hgroups⟩

/-- The superblock of an opened volume is one of the disk, fitted to the image. -/
theorem fitted_of_detect {volume : Volume} (h : (detect image mode).outcome = .ok volume) :
    ∃ disk : Superblock, 1 ≤ disk.blockSize ∧ 1 ≤ disk.sectorSize ∧
      disk.Fitted volume.sb image.size := by
  obtain ⟨_, disk, _, _, _, hblock, hsector, hfit⟩ := readSuperblock_ok (detect_ok h).1
  have hpos := Nat.pos_of_ne_zero hblock
  exact ⟨disk, hpos, Nat.pos_of_ne_zero hsector, Superblock.fitted_of_ok hpos hfit⟩

theorem blockSize_pos {volume : Volume} (h : (detect image mode).outcome = .ok volume) :
    0 < volume.sb.blockSize := by
  obtain ⟨disk, hblock, _, hfitted⟩ := fitted_of_detect h
  rw [hfitted.eq_held]
  exact hblock

theorem sectorSize_pos {volume : Volume} (h : (detect image mode).outcome = .ok volume) :
    0 < volume.sb.sectorSize := by
  obtain ⟨disk, _, hsector, hfitted⟩ := fitted_of_detect h
  rw [hfitted.eq_held]
  exact hsector

theorem blocks_le_size {volume : Volume} (h : (detect image mode).outcome = .ok volume) :
    volume.sb.blocks * volume.sb.blockSize ≤ image.size := by
  obtain ⟨_, _, _, hfitted⟩ := fitted_of_detect h
  exact hfitted.inside

/-- Every block of an opened volume lies inside its image. -/
theorem block_le_size {volume : Volume} (h : (detect image mode).outcome = .ok volume)
    {block : Nat} (hblock : block < volume.sb.blocks) :
    (block + 1) * volume.sb.blockSize ≤ image.size :=
  Nat.le_trans (Nat.mul_le_mul_right _ hblock) (blocks_le_size h)

end Volume

end DiskScope.Xfs
