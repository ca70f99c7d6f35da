/-
  DiskScope/Proofs/Xfs/BlockStart.lean --- where the blocks of a group begin.

  WHAT THIS FILE IS FOR.  Blocks of a group are counted from its start, with 32 bits, and the
  roots and child pointers of its trees are such counts.  They can be anything.  The byte
  where a block begins is a product that is computed in words of 64 bits; where a word is
  too small, it wraps around, and some other block is read as if it were the right one.

  WHY IT CANNOT BE in a strict run.  A block has a power of two as its size then, which is
  stored with 32 bits, so it has at most 2^31 bytes; and every group begins inside the
  image.  A count of 32 bits then leads less than 2^63 bytes behind the start of its group.
  A lenient run lets larger blocks pass, for which it can be.

  MAIN STATEMENTS.

      valid_of_validate    what a superblock is like that passes in a strict run
      inWords_of_valid     words are long enough for it
      block_eq_blockAt     where they are, the right block is read
-/
import DiskScope.Proofs.Xfs.Opened

set_option autoImplicit false

namespace DiskScope

/-! ## Blocks at their places -/

/-- The contents of a block, found at its place however far away that is. -/
def Image.blockAt (image : Image) (blockSize number : Nat) : Except Fault Bytes :=
  image.read (number * blockSize) blockSize

/-- Where words are long enough, the right block is read. -/
theorem BlockReader.block_eq_blockAt {reader : BlockReader} {number : Nat}
    (hsize : reader.blockSize < UInt64.size) (hstart : number * reader.blockSize < UInt64.size) :
    reader.block number = reader.image.blockAt reader.blockSize number := by
  rw [block_eq_read hsize, wrap_of_lt hstart, Image.blockAt]

namespace Xfs

/-! ## Superblocks -/

namespace Superblock

/-- The magic is right, and each size is the power of two that the logarithm stored with it names. -/
structure Valid (sb : Superblock) : Prop where
  magic_eq : sb.magic = Magic.superblock
  blockSize_eq : sb.blockSize = 2 ^ sb.blockLog
  sectorSize_eq : sb.sectorSize = 2 ^ sb.sectorLog
  inodeSize_eq : sb.inodeSize = 2 ^ sb.inodeLog
  inodesPerBlock_eq : sb.inodesPerBlock = 2 ^ sb.inodesPerBlockLog

theorem SizePair.size_eq_of_check {location : String} {pair : SizePair}
    (h : pair.check location = .ok ()) : pair.size = 2 ^ pair.log2 := by
  unfold SizePair.check at h
  split at h
  · rename_i hconsistent
    rw [SizePair.isConsistent, Bool.and_eq_true, beq_iff_eq, Nat.one_shiftLeft] at hconsistent
    exact hconsistent.2
  · cases h

theorem size_eq_of_checkPairs {location : String} {pairs : List SizePair}
    (h : (checkPairs location .strict pairs).outcome = .ok ()) :
    ∀ pair ∈ pairs, pair.size = 2 ^ pair.log2 := by
  induction pairs with
  | nil =>
    intro pair hmem
    cases hmem
  | cons first rest ih =>
    obtain ⟨passed, hfirst, hrest⟩ := Traced.bind_eq_ok.1 h
    exact List.forall_mem_cons.2
      ⟨SizePair.size_eq_of_check (Mode.ok_of_tolerate_strict hfirst), ih hrest⟩

/-- A superblock that passes in a strict run is valid. -/
theorem valid_of_validate {sb : Superblock} {location : String}
    (h : (sb.validate location .strict).outcome = .ok ()) : sb.Valid := by
  unfold validate at h
  split at h
  · rename_i hmagic
    have hsize := size_eq_of_checkPairs h
    simp only [sizePairs, List.forall_mem_cons] at hsize
    obtain ⟨hblock, hsector, hinode, hinodes, _⟩ := hsize
    exact ⟨hmagic, hblock, hsector, hinode, hinodes⟩
  · cases h

/-- The bytes of a superblock begin with its magic and the size of a block. -/
theorem leading_words {raw : Bytes} {sb : Superblock} (h : ofBytes raw = .ok sb) :
    sb.magic = raw.be32 0 ∧ sb.blockSize = raw.be32 4 := by
  obtain ⟨_, _, h⟩ := Except.bind_eq_ok.1 h
  dsimp only at h
  split at h
  · obtain ⟨_, _, h⟩ := Except.bind_eq_ok.1 h
    obtain rfl := Except.ok.inj h
    exact ⟨rfl, rfl⟩
  · obtain rfl := Except.ok.inj h
    exact ⟨rfl, rfl⟩

theorem blockSize_lt {raw : Bytes} {sb : Superblock} (h : ofBytes raw = .ok sb) :
    sb.blockSize < 2 ^ 32 := by
  rw [(leading_words h).2]
  exact Bytes.beAt_lt raw 4 4

/-! ## Words -/

/-- The block `pointer` of group `agno`, and the byte where it begins, are words of 64 bits. -/
def InWords (sb : Superblock) (agno pointer : Nat) : Prop :=
  agno * sb.agBlocks + pointer < 2 ^ 64 ∧
    (agno * sb.agBlocks + pointer) * sb.blockSize < 2 ^ 64

variable {raw : Bytes} {sb fitted : Superblock} {imageSize : Nat}

theorem Valid.blockSize_pos (h : sb.Valid) : 0 < sb.blockSize :=
  h.blockSize_eq ▸ Nat.two_pow_pos sb.blockLog

/-- A power of two that is stored with 32 bits is at most the greatest of them. -/
theorem blockSize_le (hraw : ofBytes raw = .ok sb) (hvalid : sb.Valid) : sb.blockSize ≤ 2 ^ 31 := by
  have hlt := blockSize_lt hraw
  rw [hvalid.blockSize_eq] at hlt ⊢
  have hlog : sb.blockLog < 32 := (Nat.pow_lt_pow_iff_right (by decide)).1 hlt
  exact Nat.pow_le_pow_right (by decide) (by omega)

/-- A count of 32 bits leads less than 2^63 bytes behind the start of its group, and that lies inside
the image. -/
theorem inWords_of_valid (himage : imageSize < 2 ^ 63) (hraw : ofBytes raw = .ok sb)
    (hvalid : sb.Valid) (hfitted : Fitted sb fitted imageSize) {agno pointer : Nat}
    (hagno : agno < fitted.agCount) (hpointer : pointer < 2 ^ 32) : fitted.InWords agno pointer := by
  have hsame : fitted.blockSize = sb.blockSize := by rw [hfitted.eq_held]
  have hpos : 0 < fitted.blockSize := hsame ▸ hvalid.blockSize_pos
  have hlarge : fitted.blockSize ≤ 2 ^ 31 := hsame ▸ blockSize_le hraw hvalid
  have hgroup : agno * fitted.agBlocks * fitted.blockSize < 2 ^ 63 :=
    calc agno * fitted.agBlocks * fitted.blockSize
        < fitted.blocks * fitted.blockSize := hfitted.groupOffset_lt agno hagno
      _ ≤ imageSize := hfitted.inside
      _ < 2 ^ 63 := himage
  have hbehind : pointer * fitted.blockSize < 2 ^ 63 :=
    calc pointer * fitted.blockSize
        < 2 ^ 32 * fitted.blockSize := Nat.mul_lt_mul_of_pos_right hpointer hpos
      _ ≤ 2 ^ 32 * 2 ^ 31 := Nat.mul_le_mul_left _ hlarge
      _ = 2 ^ 63 := by decide
  have hstart : (agno * fitted.agBlocks + pointer) * fitted.blockSize < 2 ^ 64 := by
    rw [Nat.add_mul]
    omega
  exact ⟨Nat.lt_of_le_of_lt (Nat.le_mul_of_pos_right _ hpos) hstart, hstart⟩

end Superblock

/-! ## Opened filesystems -/

namespace Volume

variable {image : Image} {mode : Mode} {volume : Volume}

theorem blockSize_word (hopen : (detect image mode).outcome = .ok volume) :
    volume.sb.blockSize < UInt64.size := by
  obtain ⟨_, disk, _, hraw, _, hblock, _, hfit⟩ := readSuperblock_ok (detect_ok hopen).1
  have hfitted := Superblock.fitted_of_ok (Nat.pos_of_ne_zero hblock) hfit
  have hsame : volume.sb.blockSize = disk.blockSize := by rw [hfitted.eq_held]
  exact hsame ▸ Nat.lt_trans (Superblock.blockSize_lt hraw) (by decide)

/-- In a strict run, words are long enough for every block that a group can name. -/
theorem inWords_of_strict (hopen : (detect image .strict).outcome = .ok volume) {agno pointer : Nat}
    (hagno : agno < volume.sb.agCount) (hpointer : pointer < 2 ^ 32) :
    volume.sb.InWords agno pointer := by
  obtain ⟨_, disk, _, hraw, hpasses, _, _, hfit⟩ := readSuperblock_ok (detect_ok hopen).1
  have hvalid := Superblock.valid_of_validate hpasses
  have himage : image.size < 2 ^ 63 := Nat.lt_of_le_of_lt image.size_le (by decide)
  exact Superblock.inWords_of_valid himage hraw hvalid
    (Superblock.fitted_of_ok hvalid.blockSize_pos hfit) hagno hpointer

end Volume

end Xfs

end DiskScope
