/-
  DiskScope/Xfs/Extent.lean --- packed records of file extents.

  WHAT THIS FILE IS FOR.  An extent says that a stretch of a file lives in a stretch of
  blocks.  On disk it is two big-endian 64-bit words:

      first    1 bit unwritten, 54 bits file offset, 9 high bits of the start block
      second   43 low bits of the start block, 21 bits block count

  Packing keeps each field to its width, so no field ever disturbs another.

  MAIN STATEMENTS.  `pack_unpack`: every pair of words is some extent packed.
  `unpack_pack`: unpacking gives back the fields reduced to their widths.
-/
import DiskScope.Fault

set_option autoImplicit false

namespace DiskScope.Xfs

/-- A stretch of a file. -/
structure Extent where
  /-- Whether the blocks are reserved but hold no data yet. -/
  unwritten : Bool
  /-- The first block within the file. -/
  fileOffset : Nat
  /-- The first block within the filesystem, with the group number in the high bits. -/
  startBlock : Nat
  blockCount : Nat
  deriving DecidableEq, Repr, Inhabited

namespace Extent

/-- The number of bytes of a packed extent. -/
def size : Nat := 16

/-- The extent in two words. -/
def unpack (first second : Nat) : Extent :=
  { unwritten := first / 0x8000000000000000 != 0
    fileOffset := first / 0x200 % 0x40000000000000
    startBlock := first % 0x200 * 0x80000000000 + second / 0x200000
    blockCount := second % 0x200000 }

/-- The first word of an extent. -/
def firstWord (extent : Extent) : Nat :=
  extent.unwritten.toNat * 0x8000000000000000 + extent.fileOffset % 0x40000000000000 * 0x200
    + extent.startBlock / 0x80000000000 % 0x200

/-- The second word of an extent. -/
def secondWord (extent : Extent) : Nat :=
  extent.startBlock % 0x80000000000 * 0x200000 + extent.blockCount % 0x200000

/-- The two words of an extent. -/
def pack (extent : Extent) : Nat × Nat := (extent.firstWord, extent.secondWord)

/-- Packing an unpacked extent gives the words back. -/
theorem pack_unpack {first second : Nat} (h₁ : first < 0x10000000000000000) (h₂ : second < 0x10000000000000000) :
    (unpack first second).pack = (first, second) := by
  have h : first / 0x8000000000000000 = 0 ∨ first / 0x8000000000000000 = 1 := by omega
  simp only [pack, firstWord, secondWord, unpack, Prod.mk.injEq]
  rcases h with h | h
  · simp only [h, bne_self_eq_false, Bool.toNat_false]; omega
  · simp only [h, Nat.reduceBNe, Bool.toNat_true]; omega

/-- Unpacking a packed extent gives each field reduced to its width. -/
theorem unpack_pack (extent : Extent) :
    unpack extent.firstWord extent.secondWord =
      { unwritten := extent.unwritten
        fileOffset := extent.fileOffset % 0x40000000000000
        startBlock := extent.startBlock % 0x10000000000000
        blockCount := extent.blockCount % 0x200000 } := by
  simp only [unpack, firstWord, secondWord, mk.injEq]
  have h := extent.unwritten.toNat_le
  refine ⟨?_, by omega, by omega, by omega⟩
  cases extent.unwritten
  · simp; omega
  · simp; omega

/-! ## Bytes -/

/-- The extent in the sixteen bytes of `data`. -/
def ofRecord (data : Bytes) : Extent := unpack (data.be64 0) (data.be64 8)

/-- The extent at the start of `data`. -/
def ofBytes (data : Bytes) : Except Fault Extent := do
  data.require "extent record" size
  pure (ofRecord data)

/-- The sixteen bytes of an extent. -/
def toBytes (extent : Extent) : Bytes :=
  Bytes.ofNatBE 8 extent.firstWord ++ Bytes.ofNatBE 8 extent.secondWord

/-- At most `count` consecutive extents, fewer when the bytes run out. -/
def listOf (data : Bytes) (count : Nat) : List Extent :=
  (Bytes.cut size (min count (data.length / size)) data).map ofRecord

end Extent

end DiskScope.Xfs
