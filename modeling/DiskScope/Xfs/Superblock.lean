/-
  DiskScope/Xfs/Superblock.lean --- the superblock and the geometry it promises.

  WHAT THIS FILE IS FOR.  The superblock says how large blocks, sectors, inodes and
  groups are.  Reading it only decodes; two checks then decide whether its numbers
  can be believed.

      validate    the magic, and each size against the logarithm stored with it
      fit         groups and blocks against each other and against the image

  A superblock that fits addresses only bytes of the image, so nothing that is
  read later needs a check of its own.

  The feature words of version 5 lie past the fields of version 4 and are read
  only when the version says that they exist.
-/
import DiskScope.Traced
import DiskScope.Xfs.Feature
import DiskScope.Xfs.Layout
import DiskScope.Xfs.Magic

set_option autoImplicit false

namespace DiskScope.Xfs

open Text

/-- A decoded superblock. -/
structure Superblock where
  magic : Nat
  blockSize : Nat
  /-- The number of blocks of the filesystem. -/
  blocks : Nat
  uuid : Bytes
  rootIno : Nat
  /-- The number of blocks of a group. -/
  agBlocks : Nat
  agCount : Nat
  /-- The version number and the feature bits that share its word. -/
  versionWord : Nat
  sectorSize : Nat
  inodeSize : Nat
  inodesPerBlock : Nat
  /-- The name of the filesystem. -/
  label : String
  blockLog : Nat
  sectorLog : Nat
  inodeLog : Nat
  inodesPerBlockLog : Nat
  agBlockLog : Nat
  inodeCount : Nat
  freeInodes : Nat
  freeBlocks : Nat
  features2 : Nat
  compat : Nat
  roCompat : Nat
  incompat : Nat
  logIncompat : Nat
  /-- The bytes that the superblock was read from, for display. -/
  raw : Bytes
  deriving DecidableEq, Repr, Inhabited

namespace Superblock

/-! ## Decoding -/

/-- Where the fields that every version has end. -/
def baseSize : Nat := 0xD0

/-- Where the fields of version 5 end. -/
def v5Size : Nat := 0x108

/-- The version number in a version word. -/
def versionOf (versionWord : Nat) : Nat := versionWord % 16

/-- The superblock at the start of `data`. -/
def ofBytes (data : Bytes) : Except Fault Superblock := do
  data.require "superblock" baseSize
  let versionWord := data.be16 0x64
  let isV5 := versionOf versionWord = 5
  if isV5 then data.require "v5 superblock" v5Size
  let v5Word (offset : Nat) : Nat := if isV5 then data.be32 offset else 0
  pure
    { magic := data.be32 0x00
      blockSize := data.be32 0x04
      blocks := data.be64 0x08
      uuid := data.slice 0x20 16
      rootIno := data.be64 0x38
      agBlocks := data.be32 0x54
      agCount := data.be32 0x58
      versionWord := versionWord
      sectorSize := data.be16 0x66
      inodeSize := data.be16 0x68
      inodesPerBlock := data.be16 0x6A
      label := Utf8.decode (data.slice 0x6C 12).untilZero
      blockLog := data.byteAt 0x78
      sectorLog := data.byteAt 0x79
      inodeLog := data.byteAt 0x7A
      inodesPerBlockLog := data.byteAt 0x7B
      agBlockLog := data.byteAt 0x7C
      inodeCount := data.be64 0x80
      freeInodes := data.be64 0x88
      freeBlocks := data.be64 0x90
      features2 := data.be32 0xC8
      compat := v5Word 0xD0
      roCompat := v5Word 0xD4
      incompat := v5Word 0xD8
      logIncompat := v5Word 0xDC
      raw := data.take v5Size }

/-! ## Features -/

/-- The version number. -/
def version (sb : Superblock) : Nat := versionOf sb.versionWord

/-- Whether the filesystem is of version 5, with checksums and more feature words. -/
def isV5 (sb : Superblock) : Bool := sb.version == 5

/-- Whether groups have a tree of free inodes. -/
def hasFreeInodeTree (sb : Superblock) : Bool := sb.isV5 && sb.roCompat.testBit 0

/-- Whether groups have a tree of reverse mappings. -/
def hasReverseMap (sb : Superblock) : Bool := sb.isV5 && sb.roCompat.testBit 1

/-- Whether files may share blocks, so that groups have a tree of reference counts. -/
def hasReflink (sb : Superblock) : Bool := sb.isV5 && sb.roCompat.testBit 2

/-- Whether inode chunks may have holes. -/
def hasSparseInodes (sb : Superblock) : Bool := sb.isV5 && sb.incompat.testBit 1

/-- Whether directory entries carry a file type. -/
def hasFileType (sb : Superblock) : Bool :=
  if sb.isV5 then sb.incompat.testBit 0
  else sb.versionWord.testBit 15 && sb.features2.testBit 9

/-! ## Addresses -/

/-- The byte at which group `agno` begins. -/
def groupOffset (sb : Superblock) (agno : Nat) : Nat := agno * sb.agBlocks * sb.blockSize

/-- The block at which group `agno` begins. -/
def groupBlock (sb : Superblock) (agno : Nat) : Nat := agno * sb.agBlocks

/-! ## Believing the geometry -/

/-- A size and the logarithm stored with it. -/
structure SizePair where
  field : String
  size : Nat
  log2 : Nat
  deriving DecidableEq, Repr, Inhabited

namespace SizePair

/-- Whether the size is the power of two that the logarithm names, within a 64-bit word. -/
def isConsistent (pair : SizePair) : Bool := decide (pair.log2 < 64) && pair.size == 1 <<< pair.log2

/-- The fault of a pair that does not agree. -/
def fault (location : String) (pair : SizePair) : Fault :=
  .inconsistentGeometry location pair.field pair.size pair.log2

/-- Refuses a pair that does not agree. -/
def check (location : String) (pair : SizePair) : Except Fault Unit :=
  if pair.isConsistent then .ok () else .error (pair.fault location)

end SizePair

/-- The block size and its logarithm. -/
def blockPair (sb : Superblock) : SizePair := ⟨"blocksize", sb.blockSize, sb.blockLog⟩

/-- The sector size and its logarithm. -/
def sectorPair (sb : Superblock) : SizePair := ⟨"sectsize", sb.sectorSize, sb.sectorLog⟩

/-- Every size that is stored with its logarithm, in the order in which they are checked. -/
def sizePairs (sb : Superblock) : List SizePair :=
  [ sb.blockPair, sb.sectorPair, ⟨"inodesize", sb.inodeSize, sb.inodeLog⟩,
    ⟨"inopblock", sb.inodesPerBlock, sb.inodesPerBlockLog⟩ ]

/-- Checks every pair under `mode`. -/
def checkPairs (location : String) (mode : Mode) : List SizePair → Traced Unit
  | [] => pure ()
  | pair :: rest => do
    let _ ← mode.tolerateCheck (pair.check location)
    checkPairs location mode rest

/-- Checks the magic, which no mode lets pass, and every size against its logarithm. -/
def validate (sb : Superblock) (location : String) (mode : Mode) : Traced Unit :=
  if sb.magic = Magic.superblock then checkPairs location mode sb.sizePairs
  else .fail (.badMagic "superblock" location Magic.superblock sb.magic)

/-- The number of blocks that both the groups and the image can hold. -/
def blockLimit (sb : Superblock) (imageSize : Nat) : Nat :=
  min (sb.agCount * sb.agBlocks) (imageSize / max sb.blockSize 1)

/-- `a / b` rounded up. -/
def ceilDiv (a b : Nat) : Nat := (a + b - 1) / b

/-- The superblock with its block count kept within what the groups and the image hold. -/
def clampBlocks (sb : Superblock) (location : String) (imageSize : Nat) (mode : Mode) :
    Traced Superblock :=
  let limit := sb.blockLimit imageSize
  if 1 ≤ sb.blocks ∧ sb.blocks ≤ limit then pure sb
  else do
    mode.letPass (.geometryOutOfRange location "dblocks" sb.blocks 1 limit)
    Traced.warn (location ++ ": using " ++ decimal limit ++ " blocks instead of "
      ++ decimal sb.blocks)
    pure { sb with blocks := limit }

/-- The greatest value of a 32-bit field. -/
def maxWord : Nat := 0xFFFFFFFF

/-- Refuses a field of zero. -/
def requireNonzero (location field : String) (value : Nat) : Except Fault Unit :=
  if value = 0 then .error (.geometryOutOfRange location field 0 1 maxWord) else .ok ()

/-- Refuses more groups than the blocks can fill. -/
def requireGroups (sb : Superblock) (location : String) : Except Fault Unit :=
  let most := ceilDiv sb.blocks sb.agBlocks
  if most < sb.agCount then .error (.geometryOutOfRange location "agcount" sb.agCount 1 most)
  else .ok ()

/-- The superblock fitted to an image of `imageSize` bytes; only its block count may change. -/
def fit (sb : Superblock) (location : String) (imageSize : Nat) (mode : Mode) :
    Traced Superblock := do
  requireNonzero location "agblocks" sb.agBlocks
  requireNonzero location "agcount" sb.agCount
  let fitted ← sb.clampBlocks location imageSize mode
  fitted.requireGroups location
  pure fitted

/-! ## Display -/

/-- The lines that name the features. -/
def featureLines (sb : Superblock) : List String :=
  [ "features:",
    "  version     = " ++ decimal sb.version,
    "  versionnum  = " ++ Flag.names (sb.versionWord / 16 * 16) versionFlags,
    "  features2   = " ++ Flag.names sb.features2 features2Flags ]
  ++ (if sb.isV5 then
      [ "  compat      = " ++ Flag.names sb.compat [],
        "  ro_compat   = " ++ Flag.names sb.roCompat roCompatFlags,
        "  incompat    = " ++ Flag.names sb.incompat incompatFlags,
        "  log_incompat = " ++ Flag.names sb.logIncompat logIncompatFlags ]
    else [])

/-- The superblock as text: its fields, and its features by name. -/
def render (sb : Superblock) : String :=
  Field.render "superblock" superblockFields sb.raw
    ++ (if sb.isV5 then Field.render "v5 fields" superblockV5Fields sb.raw else "")
    ++ lines sb.featureLines

end Superblock

end DiskScope.Xfs
