/-
  DiskScope/Proofs/Sparse/Reader.lean --- reading sparse image files back.

  WHAT THIS FILE IS FOR.  The writer only ever adds bytes.  This file starts the other
  side: a reader that takes any byte string, believes nothing in it, and answers
  with the header and the chunks if the string is a sparse image from its first byte to
  its last.  It shares no number with the writer.  `expand` then gives, block for
  block, what the image says.

  WHAT IS REFUSED.  A header that is short or has another magic, version, header size or
  checksum; a chunk of another kind; a chunk whose total size is not that of its
  header and, for a raw chunk, its blocks; a chunk that is cut off; bytes after the
  last chunk.

  MAIN STATEMENTS.

      readChunk_encode   a chunk that fits its header is read back
      readFile_file      and so is a whole file of such chunks
-/
import DiskScope.Sparse.Writer
import Mathlib.Algebra.GroupWithZero.Nat

set_option autoImplicit false

namespace DiskScope

namespace Bytes

/-! ## Little-endian fields in a row -/

theorem leAt_append_left {front back : Bytes} {off width : Nat}
    (h : off + width ≤ front.length) : (front ++ back).leAt off width = front.leAt off width := by
  have hdrop : width - (front.length - off) = 0 := by omega
  rw [leAt, leAt, slice, slice, List.drop_append, List.take_append, List.length_drop, hdrop,
    List.take_zero, List.append_nil]

theorem leAt_append_right {front back : Bytes} {off width : Nat} (h : front.length ≤ off) :
    (front ++ back).leAt off width = back.leAt (off - front.length) width := by
  rw [leAt, leAt, slice, slice, List.drop_append, List.drop_of_length_le h, List.nil_append]

theorem leAt_ofNatLE_append (width n : Nat) (rest : Bytes) :
    (ofNatLE width n ++ rest).leAt 0 width = n % (1 <<< (8 * width)) := by
  rw [leAt_append_left (by simp), leAt, slice, List.drop_zero, List.take_of_length_le (by simp),
    toNatLE_ofNatLE_mod]

theorem leAt_skip_ofNatLE {width n off width' : Nat} (h : width ≤ off) (rest : Bytes) :
    (ofNatLE width n ++ rest).leAt off width' = rest.leAt (off - width) width' := by
  rw [leAt_append_right (by simpa using h), length_ofNatLE]

end Bytes

namespace Sparse

/-! ## The reader -/

/-- What the header of a sparse image gives. -/
structure FileInfo where
  blockSize : Nat
  totalBlocks : Nat
  chunkCount : Nat
  deriving DecidableEq, Repr, Inhabited

/-- The header at the start of a file, and what follows it. -/
def readFileHeader (file : Bytes) : Option (FileInfo × Bytes) :=
  if 28 ≤ file.length ∧ file.leAt 0 4 = 0xED26FF3A ∧ file.leAt 4 2 = 1 ∧ file.leAt 6 2 = 0 ∧
      file.leAt 8 2 = 28 ∧ file.leAt 10 2 = 12 ∧ file.leAt 24 4 = 0 then
    some (⟨file.leAt 12 4, file.leAt 16 4, file.leAt 20 4⟩, file.drop 28)
  else none

/-- The chunk at the start of `data`, and what follows it. -/
def readChunk (blockSize : Nat) (data : Bytes) : Option (Chunk × Bytes) :=
  let blocks := data.leAt 4 4
  let total := data.leAt 8 4
  if data.length < 12 ∨ data.leAt 2 2 ≠ 0 then none
  else if data.leAt 0 2 = 0xCAC1 then
    if total = 12 + blocks * blockSize ∧ total ≤ data.length then
      some (.raw blocks (data.slice 12 (blocks * blockSize)), data.drop total)
    else none
  else if data.leAt 0 2 = 0xCAC3 then
    if total = 12 then some (.skip blocks, data.drop total) else none
  else none

/-- The `count` chunks that `data` consists of, with nothing after them. -/
def readChunks (blockSize : Nat) : (count : Nat) → Bytes → Option (List Chunk)
  | 0, data => if data = [] then some [] else none
  | count + 1, data => do
    let (chunk, rest) ← readChunk blockSize data
    let chunks ← readChunks blockSize count rest
    pure (chunk :: chunks)

/-- The header and the chunks of a file that is a sparse image. -/
def readFile (file : Bytes) : Option (FileInfo × List Chunk) := do
  let (info, rest) ← readFileHeader file
  let chunks ← readChunks info.blockSize info.chunkCount rest
  pure (info, chunks)

/-! ## What an image says -/

/-- What a chunk says of each of its blocks: the contents, or nothing. -/
def Chunk.expand (blockSize : Nat) : Chunk → List (Option Bytes)
  | .raw blocks contents => (Bytes.cut blockSize blocks contents).map some
  | .skip blocks => List.replicate blocks none

/-- What the chunks of an image say of each block in turn. -/
def expand (blockSize : Nat) (chunks : List Chunk) : List (Option Bytes) :=
  chunks.flatMap (Chunk.expand blockSize)

theorem expand_append (blockSize : Nat) (front back : List Chunk) :
    expand blockSize (front ++ back) = expand blockSize front ++ expand blockSize back := by
  simp [expand]

/-! ## Chunks that can be read back -/

/-- The chunk is not empty, its numbers fit their words, and its contents are whole. -/
def Chunk.Fits (blockSize : Nat) : Chunk → Prop
  | .raw blocks contents =>
    0 < blocks ∧ blocks ≤ maxWord ∧ contents.length = blocks * blockSize ∧
      chunkHeaderSize + blocks * blockSize ≤ maxWord
  | .skip blocks => 0 < blocks ∧ blocks ≤ maxWord

theorem Chunk.Fits.blocks_pos {blockSize : Nat} {chunk : Chunk} (h : chunk.Fits blockSize) :
    0 < chunk.blocks := by
  cases chunk with
  | raw blocks contents => exact h.1
  | skip blocks => exact h.1

/-- No image of chunks that fit has more chunks than blocks. -/
theorem length_le_blocks {blockSize : Nat} {chunks : List Chunk}
    (h : ∀ chunk ∈ chunks, chunk.Fits blockSize) :
    chunks.length ≤ (chunks.map Chunk.blocks).sum := by
  induction chunks with
  | nil => simp
  | cons chunk rest ih =>
    have hpos := (h chunk List.mem_cons_self).blocks_pos
    have := ih fun c hc => h c (List.mem_cons_of_mem _ hc)
    rw [List.map_cons, List.sum_cons, List.length_cons]
    omega

theorem mod_word {n : Nat} (h : n ≤ maxWord) : n % (1 <<< (8 * 4)) = n := by
  unfold maxWord at h
  exact Nat.mod_eq_of_lt (by simp only [Nat.one_shiftLeft]; omega)

theorem chunkHeader_fields {mark blocks dataSize : Nat} (hmark : mark < 1 <<< (8 * 2))
    (hblocks : blocks ≤ maxWord) (hsize : chunkHeaderSize + dataSize ≤ maxWord) (rest : Bytes) :
    (chunkHeader mark blocks dataSize ++ rest).leAt 0 2 = mark ∧
      (chunkHeader mark blocks dataSize ++ rest).leAt 2 2 = 0 ∧
      (chunkHeader mark blocks dataSize ++ rest).leAt 4 4 = blocks ∧
      (chunkHeader mark blocks dataSize ++ rest).leAt 8 4 = chunkHeaderSize + dataSize := by
  simp only [chunkHeader, List.append_assoc]
  refine ⟨?_, ?_, ?_, ?_⟩
  · rw [Bytes.leAt_ofNatLE_append, Nat.mod_eq_of_lt hmark]
  · rw [Bytes.leAt_skip_ofNatLE (by omega), Bytes.leAt_ofNatLE_append]
    rfl
  · rw [Bytes.leAt_skip_ofNatLE (by omega), Bytes.leAt_skip_ofNatLE (by omega),
      Bytes.leAt_ofNatLE_append, mod_word hblocks]
  · rw [Bytes.leAt_skip_ofNatLE (by omega), Bytes.leAt_skip_ofNatLE (by omega),
      Bytes.leAt_skip_ofNatLE (by omega), Bytes.leAt_ofNatLE_append, mod_word hsize]

/-- A chunk that fits its header is read back, whatever follows it. -/
theorem readChunk_encode {blockSize : Nat} {chunk : Chunk} (h : chunk.Fits blockSize)
    (rest : Bytes) : readChunk blockSize (chunk.encode blockSize ++ rest) = some (chunk, rest) := by
  cases chunk with
  | raw blocks contents =>
    obtain ⟨_, hblocks, hlen, hsize⟩ := h
    rw [Chunk.encode, List.append_assoc]
    obtain ⟨hmark, hzero, hcount, htotal⟩ :=
      chunkHeader_fields (show rawMark < 1 <<< (8 * 2) by decide) hblocks hsize (contents ++ rest)
    have hdrop : (chunkHeader rawMark blocks (blocks * blockSize) ++ (contents ++ rest)).drop
        chunkHeaderSize = contents ++ rest :=
      List.drop_left' (length_chunkHeader _ _ _)
    have hlong : chunkHeaderSize + blocks * blockSize ≤
        (chunkHeader rawMark blocks (blocks * blockSize) ++ (contents ++ rest)).length := by
      simp only [List.length_append, length_chunkHeader]
      omega
    generalize chunkHeader rawMark blocks (blocks * blockSize) ++ (contents ++ rest) = data at *
    have hcontents : data.slice chunkHeaderSize (blocks * blockSize) = contents := by
      rw [Bytes.slice, hdrop, ← hlen, List.take_left]
    have hrest : data.drop (chunkHeaderSize + blocks * blockSize) = rest := by
      rw [← List.drop_drop, hdrop, ← hlen, List.drop_left]
    have hfull : ¬ (data.length < chunkHeaderSize ∨ (0 : Nat) ≠ 0) := by omega
    unfold rawMark at hmark
    unfold chunkHeaderSize at *
    simp only [readChunk, hmark, hzero, hcount, htotal, if_neg hfull, if_true, hlong, and_self,
      hcontents, hrest]
  | skip blocks =>
    obtain ⟨_, hblocks⟩ := h
    rw [Chunk.encode]
    obtain ⟨hmark, hzero, hcount, htotal⟩ :=
      chunkHeader_fields (show skipMark < 1 <<< (8 * 2) by decide) hblocks
        (show chunkHeaderSize + 0 ≤ maxWord by decide) rest
    have hrest : (chunkHeader skipMark blocks 0 ++ rest).drop chunkHeaderSize = rest :=
      List.drop_left' (length_chunkHeader _ _ _)
    have hlong : chunkHeaderSize ≤ (chunkHeader skipMark blocks 0 ++ rest).length := by simp
    generalize chunkHeader skipMark blocks 0 ++ rest = data at *
    have hfull : ¬ (data.length < chunkHeaderSize ∨ (0 : Nat) ≠ 0) := by omega
    have hkinds : ¬ (0xCAC3 : Nat) = 0xCAC1 := by decide
    unfold skipMark at hmark
    unfold chunkHeaderSize at *
    simp only [readChunk, hmark, hzero, hcount, htotal, if_neg hfull, if_neg hkinds, if_true,
      Nat.add_zero, hrest]

theorem readChunks_encode {blockSize : Nat} {chunks : List Chunk}
    (h : ∀ chunk ∈ chunks, chunk.Fits blockSize) :
    readChunks blockSize chunks.length (chunks.flatMap (Chunk.encode blockSize)) =
      some chunks := by
  induction chunks with
  | nil => rfl
  | cons chunk rest ih =>
    rw [List.length_cons, List.flatMap_cons, readChunks,
      readChunk_encode (h chunk List.mem_cons_self)]
    simp [ih fun c hc => h c (List.mem_cons_of_mem _ hc)]

/-! ## Files -/

theorem readFileHeader_fileHeader {blockSize totalBlocks chunkCount : Nat}
    (hsize : blockSize ≤ maxWord) (htotal : totalBlocks ≤ maxWord)
    (hcount : chunkCount ≤ maxWord) (rest : Bytes) :
    readFileHeader (fileHeader blockSize totalBlocks chunkCount ++ rest) =
      some (⟨blockSize, totalBlocks, chunkCount⟩, rest) := by
  have hdrop : (fileHeader blockSize totalBlocks chunkCount ++ rest).drop fileHeaderSize = rest :=
    List.drop_left' (length_fileHeader _ _ _)
  have hlong : fileHeaderSize ≤ (fileHeader blockSize totalBlocks chunkCount ++ rest).length := by
    simp
  -- The fields stand in a row, so each is found by skipping those in front of it.
  have hmagic : magic % (1 <<< (8 * 4)) = magic := by decide
  have hmajor : 1 % (1 <<< (8 * 2)) = 1 := by decide
  have hheader : fileHeaderSize % (1 <<< (8 * 2)) = fileHeaderSize := by decide
  have hchunk : chunkHeaderSize % (1 <<< (8 * 2)) = chunkHeaderSize := by decide
  unfold fileHeaderSize at hdrop hlong
  simp only [readFileHeader, hdrop, hlong, true_and]
  simp [fileHeader, Bytes.leAt_skip_ofNatLE, Bytes.leAt_ofNatLE_append, mod_word hsize,
    mod_word htotal, mod_word hcount, hmagic, hmajor, hheader, hchunk, -Nat.reduceShiftLeft,
    -Nat.reduceMul]
  exact ⟨rfl, rfl, rfl⟩

/-- A file whose header counts its chunks, all of which fit, is read back. -/
theorem readFile_file {writer : Writer} (hsize : writer.blockSize ≤ maxWord)
    (htotal : writer.totalBlocks ≤ maxWord) (hcount : writer.chunks.size ≤ maxWord)
    (hfit : ∀ chunk ∈ writer.chunks.toList, chunk.Fits writer.blockSize) :
    readFile writer.finishedFile =
      some (⟨writer.blockSize, writer.totalBlocks, writer.chunks.size⟩, writer.chunks.toList) := by
  rw [Writer.finishedFile, Writer.file, readFile, readFileHeader_fileHeader hsize htotal hcount,
    Writer.body]
  have hchunks := readChunks_encode hfit
  rw [Array.length_toList] at hchunks
  simp [hchunks]

end Sparse

end DiskScope
