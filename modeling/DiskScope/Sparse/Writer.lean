/-
  DiskScope/Sparse/Writer.lean --- writing used blocks into a sparse image.

  WHAT THIS FILE IS FOR.  A writer takes runs of blocks in ascending order.  Blocks
  between two runs become skipping chunks, the blocks of a run become raw chunks.
  When all runs are in, the rest of the device is skipped and the number of
  chunks, which the header has to give, is known.

  Until then the header gives zero chunks.  A run that cannot be copied to its end
  leaves behind what was copied, under a header that announces all of it.

  Contents are copied in batches of `copyBatch` blocks; a batch that cannot be read
  in full adds nothing.
-/
import DiskScope.Sparse.Format
import DiskScope.Xfs.FreeSpace

set_option autoImplicit false

namespace DiskScope.Sparse

/-- The number of blocks that are copied at a time. -/
def copyBatch : Nat := 256

/-- An image that is being written. -/
structure Writer where
  blockSize : Nat
  totalBlocks : Nat
  /-- The first block that no chunk covers. -/
  nextBlock : Nat
  chunks : Array Chunk
  deriving Repr, Inhabited

namespace Writer

/-- An image without chunks; the header must be able to hold the number of blocks. -/
def create (blockSize totalBlocks : Nat) : Except Fault Writer :=
  if maxWord < totalBlocks then
    .error (.geometryOutOfRange "sparse header" "total_blks" totalBlocks 0 maxWord)
  else .ok { blockSize, totalBlocks, nextBlock := 0, chunks := #[] }

/-- How many blocks a chunk can cover. -/
def limit (writer : Writer) : Nat := chunkLimit writer.blockSize

/-- Skips `count` blocks. -/
def skip (writer : Writer) (count : Nat) : Writer :=
  { writer with
    nextBlock := writer.nextBlock + count
    chunks := writer.chunks ++ ((split writer.limit count).map Chunk.skip) }

/-- Skips up to `block`, if that lies ahead. -/
def skipTo (writer : Writer) (block : Nat) : Writer :=
  if writer.nextBlock < block then writer.skip (block - writer.nextBlock) else writer

/-- The contents of the `count` blocks from `block` on, up to the first batch that cannot be read. -/
def copy (source : BlockReader) (block count : Nat) : Bytes × Except Fault Unit :=
  if count = 0 then ([], .ok ())
  else
    match source.readBlocks block (piece copyBatch count) with
    | .error fault => ([], .error fault)
    | .ok data =>
      let (more, outcome) :=
        copy source (block + piece copyBatch count) (count - piece copyBatch count)
      (data ++ more, outcome)
termination_by count
decreasing_by have := piece_pos copyBatch ‹count ≠ 0›; omega

/-- Adds raw chunks for the `count` blocks from `block` on, up to the first one that cannot be
copied. -/
def addRaw (source : BlockReader) (block count : Nat) (writer : Writer) :
    Writer × Except Fault Unit :=
  if count = 0 then (writer, .ok ())
  else
    let blocks := piece writer.limit count
    let (contents, outcome) := copy source block blocks
    let grown := { writer with chunks := writer.chunks.push (.raw blocks contents) }
    match outcome with
    | .error fault => (grown, .error fault)
    | .ok () => addRaw source (block + blocks) (count - blocks) grown
termination_by count
decreasing_by have := piece_pos writer.limit ‹count ≠ 0›; omega

/-- Takes a run of blocks of `source`. -/
def writeRun (source : BlockReader) (run : Run) (writer : Writer) : Writer × Except Fault Unit :=
  let aligned := writer.skipTo run.start
  match addRaw source run.start run.length aligned with
  | (grown, .error fault) => (grown, .error fault)
  | (grown, .ok ()) => ({ grown with nextBlock := run.start + run.length }, .ok ())

/-- A writer takes the used runs of a filesystem. -/
def sink : Xfs.Sink Writer := ⟨writeRun⟩

/-- The writer once the device is covered to its end. -/
def finish (writer : Writer) : Writer := writer.skipTo writer.totalBlocks

/-! ## The file -/

/-- The bytes of the chunks. -/
def body (writer : Writer) : Bytes :=
  writer.chunks.toList.flatMap (Chunk.encode writer.blockSize)

/-- The file whose header gives `chunkCount` chunks. -/
def file (writer : Writer) (chunkCount : Nat) : Bytes :=
  fileHeader writer.blockSize writer.totalBlocks chunkCount ++ writer.body

/-- The file while it is being written. -/
def unfinishedFile (writer : Writer) : Bytes := writer.file 0

/-- The file of a finished writer. -/
def finishedFile (writer : Writer) : Bytes := writer.file writer.chunks.size

end Writer

end DiskScope.Sparse
