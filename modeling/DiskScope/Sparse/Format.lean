/-
  DiskScope/Sparse/Format.lean --- the layout of sparse image files.

  WHAT THIS FILE IS FOR.  A sparse image is a header of 28 bytes and then chunks.  A
  chunk covers a number of blocks: a raw chunk carries their contents, a skipping
  chunk carries nothing and stands for blocks whose contents do not matter.  All
  integers are little-endian.

  A chunk's total size is a 32-bit word, which limits how many blocks one raw chunk
  can cover (`chunkLimit`).  Longer stretches are cut into as few chunks as
  possible (`split`).

  MAIN STATEMENTS.  `total_split` and `length_split`: cutting loses no block and makes
  no more pieces than it must.
-/
import DiskScope.Bytes

set_option autoImplicit false

namespace DiskScope.Sparse

/-! ## Constants -/

/-- The number that a sparse image begins with. -/
def magic : Nat := 0xED26FF3A

/-- The number of bytes of the file header. -/
def fileHeaderSize : Nat := 28

/-- The number of bytes of a chunk header. -/
def chunkHeaderSize : Nat := 12

/-- The mark of a chunk with contents. -/
def rawMark : Nat := 0xCAC1

/-- The mark of a chunk without contents. -/
def skipMark : Nat := 0xCAC3

/-- The greatest value of a 32-bit field. -/
def maxWord : Nat := 0xFFFFFFFF

/-! ## Encoding -/

/-- The file header of an image. -/
def fileHeader (blockSize totalBlocks chunkCount : Nat) : Bytes :=
  Bytes.ofNatLE 4 magic ++ Bytes.ofNatLE 2 1 ++ Bytes.ofNatLE 2 0
    ++ Bytes.ofNatLE 2 fileHeaderSize ++ Bytes.ofNatLE 2 chunkHeaderSize
    ++ Bytes.ofNatLE 4 blockSize ++ Bytes.ofNatLE 4 totalBlocks ++ Bytes.ofNatLE 4 chunkCount
    ++ Bytes.ofNatLE 4 0

/-- The header of a chunk that covers `blocks` blocks and announces `dataSize` bytes. -/
def chunkHeader (mark blocks dataSize : Nat) : Bytes :=
  Bytes.ofNatLE 2 mark ++ Bytes.ofNatLE 2 0 ++ Bytes.ofNatLE 4 blocks
    ++ Bytes.ofNatLE 4 (chunkHeaderSize + dataSize)

/-- A chunk of an image. -/
inductive Chunk where
  /-- Blocks and their contents, which fall short only where copying them failed. -/
  | raw (blocks : Nat) (contents : Bytes)
  /-- Blocks whose contents do not matter. -/
  | skip (blocks : Nat)
  deriving DecidableEq, Repr, Inhabited

namespace Chunk

/-- The number of blocks that a chunk covers. -/
def blocks : Chunk → Nat
  | raw blocks _ => blocks
  | skip blocks => blocks

/-- The bytes of a chunk in an image with blocks of `blockSize` bytes. -/
def encode (blockSize : Nat) : Chunk → Bytes
  | raw blocks contents => chunkHeader rawMark blocks (blocks * blockSize) ++ contents
  | skip blocks => chunkHeader skipMark blocks 0

end Chunk

@[simp] theorem length_fileHeader (blockSize totalBlocks chunkCount : Nat) :
    (fileHeader blockSize totalBlocks chunkCount).length = fileHeaderSize := by
  simp [fileHeader, fileHeaderSize]

@[simp] theorem length_chunkHeader (mark blocks dataSize : Nat) :
    (chunkHeader mark blocks dataSize).length = chunkHeaderSize := by
  simp [chunkHeader, chunkHeaderSize]

/-! ## Cutting stretches of blocks -/

/-- How many blocks of `blockSize` bytes a raw chunk can cover. -/
def chunkLimit (blockSize : Nat) : Nat := (maxWord - chunkHeaderSize) / max blockSize 1

/-- The first piece of a stretch of `count` blocks: as many as `limit` allows, and at least one.  A limit
of zero, which only blocks of more than 2^32 - 13 bytes have, allows none, and a writer that keeps to
it never gets through a stretch; here it goes on by one block, so nothing that is said of such sizes
is said of that writer. -/
def piece (limit count : Nat) : Nat := min count (max limit 1)

theorem piece_pos (limit : Nat) {count : Nat} (h : count ≠ 0) : 0 < piece limit count := by
  unfold piece; omega

theorem piece_le (limit count : Nat) : piece limit count ≤ count := by
  unfold piece; omega

/-- A stretch of `count` blocks in pieces of `limit` and a last one of at most `limit`. -/
def split (limit count : Nat) : List Nat :=
  if count = 0 then [] else piece limit count :: split limit (count - piece limit count)
termination_by count
decreasing_by have := piece_pos limit ‹count ≠ 0›; omega

/-- Cutting loses no block. -/
theorem total_split (limit count : Nat) : (split limit count).foldr (· + ·) 0 = count := by
  fun_induction split limit count with
  | case1 => rfl
  | case2 count h ih =>
    have := piece_le limit count
    rw [List.foldr_cons, ih]; omega

/-- Cutting makes no more pieces than it must. -/
theorem length_split {limit : Nat} (hlimit : 0 < limit) (count : Nat) :
    (split limit count).length = (count + limit - 1) / limit := by
  fun_induction split limit count with
  | case1 => rw [List.length_nil, Nat.div_eq_of_lt (by omega)]
  | case2 count h ih =>
    rw [List.length_cons, ih, ← Nat.add_div_right _ hlimit, piece]
    by_cases hle : count ≤ limit
    · have one : ∀ n : Nat, n < limit → (n + limit) / limit = 1 := fun n hn => by
        rw [Nat.add_div_right _ hlimit, Nat.div_eq_of_lt hn]
      have hfirst := one (count - min count (max limit 1) + limit - 1) (by omega)
      have hwhole := one (count - 1) (by omega)
      rw [hfirst, show count + limit - 1 = count - 1 + limit by omega, hwhole]
    · congr 1; omega

end DiskScope.Sparse
