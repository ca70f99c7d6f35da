/-
  DiskScope/Xfs/Layout.lean --- the field tables of XFS structures.

  WHAT THIS FILE IS FOR.  These tables say where each field of a fixed structure lies
  and how it is shown.  They serve display; decoders read the fields they need by
  themselves, and that both see the same values is a law about the two.
-/
import DiskScope.Field

set_option autoImplicit false

namespace DiskScope.Xfs

/-! ## Superblock -/

/-- The fields of a superblock of any version. -/
def superblockFields : List Field :=
  [ ⟨"magicnum", 0x00, .word 4⟩,
    ⟨"blocksize", 0x04, .number 4⟩,
    ⟨"dblocks", 0x08, .number 8⟩,
    ⟨"rblocks", 0x10, .number 8⟩,
    ⟨"rextents", 0x18, .number 8⟩,
    ⟨"uuid", 0x20, .uuid⟩,
    ⟨"logstart", 0x30, .number 8⟩,
    ⟨"rootino", 0x38, .number 8⟩,
    ⟨"rbmino", 0x40, .number 8⟩,
    ⟨"rsumino", 0x48, .number 8⟩,
    ⟨"rextsize", 0x50, .number 4⟩,
    ⟨"agblocks", 0x54, .number 4⟩,
    ⟨"agcount", 0x58, .number 4⟩,
    ⟨"rbmblocks", 0x5C, .number 4⟩,
    ⟨"logblocks", 0x60, .number 4⟩,
    ⟨"versionnum", 0x64, .word 2⟩,
    ⟨"sectsize", 0x66, .number 2⟩,
    ⟨"inodesize", 0x68, .number 2⟩,
    ⟨"inopblock", 0x6A, .number 2⟩,
    ⟨"fname", 0x6C, .text 12⟩,
    ⟨"blocklog", 0x78, .number 1⟩,
    ⟨"sectlog", 0x79, .number 1⟩,
    ⟨"inodelog", 0x7A, .number 1⟩,
    ⟨"inopblog", 0x7B, .number 1⟩,
    ⟨"agblklog", 0x7C, .number 1⟩,
    ⟨"rextslog", 0x7D, .number 1⟩,
    ⟨"inprogress", 0x7E, .number 1⟩,
    ⟨"imax_pct", 0x7F, .number 1⟩,
    ⟨"icount", 0x80, .number 8⟩,
    ⟨"ifree", 0x88, .number 8⟩,
    ⟨"fdblocks", 0x90, .number 8⟩,
    ⟨"frextents", 0x98, .number 8⟩,
    ⟨"uquotino", 0xA0, .number 8⟩,
    ⟨"gquotino", 0xA8, .number 8⟩,
    ⟨"qflags", 0xB0, .word 2⟩,
    ⟨"flags", 0xB2, .number 1⟩,
    ⟨"shared_vn", 0xB3, .number 1⟩,
    ⟨"inoalignmt", 0xB4, .number 4⟩,
    ⟨"unit", 0xB8, .number 4⟩,
    ⟨"width", 0xBC, .number 4⟩,
    ⟨"dirblklog", 0xC0, .number 1⟩,
    ⟨"logsectlog", 0xC1, .number 1⟩,
    ⟨"logsectsize", 0xC2, .number 2⟩,
    ⟨"logsunit", 0xC4, .number 4⟩,
    ⟨"features2", 0xC8, .word 4⟩,
    ⟨"bad_features2", 0xCC, .word 4⟩ ]

/-- The fields that version 5 adds to a superblock. -/
def superblockV5Fields : List Field :=
  [ ⟨"features_compat", 0xD0, .word 4⟩,
    ⟨"features_ro_compat", 0xD4, .word 4⟩,
    ⟨"features_incompat", 0xD8, .word 4⟩,
    ⟨"features_log_incompat", 0xDC, .word 4⟩,
    ⟨"crc", 0xE0, .word 4⟩,
    ⟨"spino_align", 0xE4, .number 4⟩,
    ⟨"pquotino", 0xE8, .number 8⟩,
    ⟨"lsn", 0xF0, .word 8⟩,
    ⟨"meta_uuid", 0xF8, .uuid⟩ ]

/-! ## Headers of an allocation group -/

/-- The header of a group's free space. -/
def agfFields : List Field :=
  [ ⟨"magicnum", 0x00, .word 4⟩,
    ⟨"versionnum", 0x04, .number 4⟩,
    ⟨"seqno", 0x08, .number 4⟩,
    ⟨"length", 0x0C, .number 4⟩,
    ⟨"bno_root", 0x10, .number 4⟩,
    ⟨"cnt_root", 0x14, .number 4⟩,
    ⟨"rmap_root", 0x18, .number 4⟩,
    ⟨"bno_level", 0x1C, .number 4⟩,
    ⟨"cnt_level", 0x20, .number 4⟩,
    ⟨"rmap_level", 0x24, .number 4⟩,
    ⟨"flfirst", 0x28, .number 4⟩,
    ⟨"fllast", 0x2C, .number 4⟩,
    ⟨"flcount", 0x30, .number 4⟩,
    ⟨"freeblks", 0x34, .number 4⟩,
    ⟨"longest", 0x38, .number 4⟩,
    ⟨"btreeblks", 0x3C, .number 4⟩,
    ⟨"uuid", 0x40, .uuid⟩,
    ⟨"rmap_blocks", 0x50, .number 4⟩,
    ⟨"refcount_blocks", 0x54, .number 4⟩,
    ⟨"refcount_root", 0x58, .number 4⟩,
    ⟨"refcount_level", 0x5C, .number 4⟩,
    ⟨"lsn", 0xD0, .word 8⟩,
    ⟨"crc", 0xD8, .word 4⟩ ]

/-- The header of a group's inodes. -/
def agiFields : List Field :=
  [ ⟨"magicnum", 0x00, .word 4⟩,
    ⟨"versionnum", 0x04, .number 4⟩,
    ⟨"seqno", 0x08, .number 4⟩,
    ⟨"length", 0x0C, .number 4⟩,
    ⟨"count", 0x10, .number 4⟩,
    ⟨"root", 0x14, .number 4⟩,
    ⟨"level", 0x18, .number 4⟩,
    ⟨"freecount", 0x1C, .number 4⟩,
    ⟨"newino", 0x20, .number 4⟩,
    ⟨"dirino", 0x24, .number 4⟩,
    ⟨"uuid", 0x128, .uuid⟩,
    ⟨"crc", 0x138, .word 4⟩,
    ⟨"lsn", 0x140, .word 8⟩,
    ⟨"free_root", 0x148, .number 4⟩,
    ⟨"free_level", 0x14C, .number 4⟩,
    ⟨"iblocks", 0x150, .number 4⟩,
    ⟨"fblocks", 0x154, .number 4⟩ ]

/-- The header of a group's free list, on version 5. -/
def agflFields : List Field :=
  [ ⟨"magicnum", 0x00, .word 4⟩,
    ⟨"seqno", 0x04, .number 4⟩,
    ⟨"uuid", 0x08, .uuid⟩,
    ⟨"lsn", 0x18, .word 8⟩,
    ⟨"crc", 0x20, .word 4⟩ ]

/-! ## Tree blocks -/

/-- The header of a tree block with 32-bit sibling pointers. -/
def treeBlockFields : List Field :=
  [ ⟨"magic", 0x00, .word 4⟩,
    ⟨"level", 0x04, .number 2⟩,
    ⟨"numrecs", 0x06, .number 2⟩,
    ⟨"leftsib", 0x08, .word 4⟩,
    ⟨"rightsib", 0x0C, .word 4⟩ ]

/-- What checksums add to the header of a tree block. -/
def treeBlockCrcFields : List Field :=
  [ ⟨"blkno", 0x10, .number 8⟩,
    ⟨"lsn", 0x18, .word 8⟩,
    ⟨"uuid", 0x20, .uuid⟩,
    ⟨"owner", 0x30, .number 4⟩,
    ⟨"crc", 0x34, .word 4⟩ ]

/-! ## Other structures -/

/-- A quota record. -/
def quotaFields : List Field :=
  [ ⟨"magic", 0x00, .word 2⟩,
    ⟨"version", 0x02, .number 1⟩,
    ⟨"type", 0x03, .number 1⟩,
    ⟨"id", 0x04, .number 4⟩,
    ⟨"blk_hardlimit", 0x08, .number 8⟩,
    ⟨"blk_softlimit", 0x10, .number 8⟩,
    ⟨"ino_hardlimit", 0x18, .number 8⟩,
    ⟨"ino_softlimit", 0x20, .number 8⟩,
    ⟨"bcount", 0x28, .number 8⟩,
    ⟨"icount", 0x30, .number 8⟩,
    ⟨"itimer", 0x38, .number 4⟩,
    ⟨"btimer", 0x3C, .number 4⟩,
    ⟨"iwarns", 0x40, .number 2⟩,
    ⟨"bwarns", 0x42, .number 2⟩,
    ⟨"rtb_hardlimit", 0x48, .number 8⟩,
    ⟨"rtb_softlimit", 0x50, .number 8⟩,
    ⟨"rtbcount", 0x58, .number 8⟩,
    ⟨"rtbtimer", 0x60, .number 4⟩,
    ⟨"rtbwarns", 0x64, .number 2⟩ ]

/-- The header of a log record. -/
def logRecordFields : List Field :=
  [ ⟨"magicno", 0x00, .word 4⟩,
    ⟨"cycle", 0x04, .number 4⟩,
    ⟨"version", 0x08, .number 4⟩,
    ⟨"len", 0x0C, .number 4⟩,
    ⟨"lsn", 0x10, .word 8⟩,
    ⟨"tail_lsn", 0x18, .word 8⟩,
    ⟨"crc", 0x20, .word 4⟩,
    ⟨"prev_block", 0x24, .number 4⟩,
    ⟨"num_logops", 0x28, .number 4⟩,
    ⟨"fmt", 0x12C, .number 4⟩,
    ⟨"fs_uuid", 0x130, .uuid⟩,
    ⟨"size", 0x140, .number 4⟩ ]

end DiskScope.Xfs
