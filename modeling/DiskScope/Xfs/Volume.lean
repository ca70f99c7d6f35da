/-
  DiskScope/Xfs/Volume.lean --- an opened filesystem and what can be asked of it.

  WHAT THIS FILE IS FOR.  Opening a filesystem validates the superblock, fits it to the
  image and loads every group.  All questions are then answered from that state
  and from reads of the image, which nothing changes: the answers do not depend
  on the order of the questions.

  A filesystem whose block or sector size is zero is refused in every mode, since
  nothing in it could be addressed.
-/
import DiskScope.Sparse.Writer
import DiskScope.Xfs.Scan

set_option autoImplicit false

namespace DiskScope.Xfs

open Text

/-- An opened filesystem. -/
structure Volume where
  reader : BlockReader
  sb : Superblock
  groups : List Group
  mode : Mode

namespace Volume

/-! ## Opening -/

/-- The number of bytes that hold the superblock. -/
def superblockRead : Nat := 512

/-- How the superblock that a filesystem is opened by is called. -/
def primary : String := "primary superblock"

/-- Refuses a size of zero. -/
def requireSize (pair : Superblock.SizePair) : Except Fault Unit :=
  if pair.size = 0 then .error (pair.fault primary) else .ok ()

/-- The superblock of an image, validated and fitted. -/
def readSuperblock (image : Image) (mode : Mode) : Traced Superblock := do
  let raw ← image.read 0 superblockRead
  let sb ← Superblock.ofBytes raw
  sb.validate primary mode
  requireSize sb.blockPair
  requireSize sb.sectorPair
  sb.fit primary image.size mode

/-- Opens the filesystem in an image. -/
def detect (image : Image) (mode : Mode) : Traced Volume := do
  let sb ← readSuperblock image mode
  Traced.info ("XFS v" ++ decimal sb.version ++ " \"" ++ sb.label ++ "\" " ++ Text.uuid sb.uuid
    ++ ": " ++ decimal sb.blocks ++ " blocks of " ++ decimal sb.blockSize ++ " bytes, "
    ++ decimal sb.agCount ++ " AGs")
  let reader : BlockReader := { image, blockSize := sb.blockSize }
  let groups ← Group.loadAll reader sb mode
  pure { reader, sb, groups, mode }

/-! ## Questions -/

/-- The group with this number. -/
def group? (volume : Volume) (agno : Nat) : Option Group := volume.groups[agno]?

/-- The contents of a block. -/
def readBlock (volume : Volume) (block : Nat) : Except Fault Bytes :=
  volume.reader.block block

/-- The contents of one sector of a block, which must lie in the block.  Where it begins is computed in
words too, but with the block size of the superblock. -/
def readSector (volume : Volume) (block sector : Nat) : Except Fault Bytes :=
  let size := volume.sb.sectorSize
  let start := sector * size
  if volume.sb.blockSize < start + size then
    .error (.truncated "block" (start + size) volume.sb.blockSize)
  else volume.reader.readRaw (wrap (block * volume.sb.blockSize + start)) size

/-- The contents of a block, or of one sector of it. -/
def read (volume : Volume) (block : Nat) (sector : Option Nat) : Except Fault Bytes :=
  match sector with
  | none => volume.readBlock block
  | some sector => volume.readSector block sector

/-- The text of `data` as a structure of this filesystem. -/
def render (volume : Volume) (kind : Structure) (data : Bytes) : String :=
  kind.render data (some volume.sb)

/-- The stride of a scan: the one asked for, unless that is zero, else the sector size. -/
def scanStride (volume : Volume) (stride : Option Nat) : Nat :=
  match stride with
  | some (n + 1) => n + 1
  | _ => volume.sb.sectorSize

/-- A scan of every whole block of the image. -/
def scan (volume : Volume) (stride : Option Nat) : Traced Scan :=
  let image := volume.reader.image
  Scan.start image volume.sb.blockSize (image.size / volume.sb.blockSize)
    (volume.scanStride stride)

/-- The inode `ino`. -/
def fetchInode (volume : Volume) (ino : Nat) : Traced Inode :=
  Inode.fetch volume.reader volume.sb ino

/-- The filesystem as it was opened, with nothing left in its image. -/
def emptied (volume : Volume) : Volume :=
  { volume with reader := { volume.reader with image := volume.reader.image.emptied } }

/-- Hands the runs of used blocks to a sink. -/
def exportTo {σ : Type} (volume : Volume) (sink : Sink σ) (state : σ) : σ × Traced Nat :=
  sink.exportUsed volume.reader volume.sb volume.groups volume.mode state

/-- Writes the used blocks into a sparse image: the file as it then stands, and the number of used
blocks.  `destination` is only named in the trace. -/
def exportSparse (volume : Volume) (destination : String) : Bytes × Traced Nat :=
  match Sparse.Writer.create volume.sb.blockSize volume.sb.blocks with
  | .error fault => ([], .fail fault)
  | .ok writer =>
    let (written, run) := volume.exportTo Sparse.Writer.sink writer
    match run.outcome with
    | .error fault => (written.unfinishedFile, ⟨run.events, .error fault⟩)
    | .ok used =>
      let finished := written.finish
      let event : Event := .note .info ("exported " ++ decimal used ++ " used blocks as "
        ++ decimal finished.chunks.size ++ " chunks to " ++ destination)
      (finished.finishedFile, ⟨run.events ++ [event], .ok used⟩)

end Volume

end DiskScope.Xfs
