/-
  DiskScope/Xfs/TreeBlock.lean --- blocks of the on-disk trees.

  WHAT THIS FILE IS FOR.  A tree block is a header and then, in a leaf, records, and
  otherwise keys and child pointers.  The magic alone says which tree the block
  belongs to, whether its header carries checksums, and which records it holds.

  All headers are read in their short form, with 32-bit sibling pointers.  The two
  extent-map trees really use a longer one, so their records are shown as
  unverified.

  Every count in a header is untrusted: records and pointers are read only after
  the block is known to hold them all.
-/
import DiskScope.Fault
import DiskScope.Xfs.Extent
import DiskScope.Xfs.Layout
import DiskScope.Xfs.Magic

set_option autoImplicit false

namespace DiskScope.Xfs

open Text

/-! ## Records -/

/-- A stretch of free blocks, counted from the start of its group. -/
structure FreeRecord where
  start : Nat
  count : Nat
  deriving DecidableEq, Repr, Inhabited

namespace FreeRecord

/-- The number of bytes of a record. -/
def size : Nat := 8

/-- The record in the eight bytes of `data`. -/
def ofBytes (data : Bytes) : FreeRecord := ⟨data.be32 0, data.be32 4⟩

/-- The eight bytes of a record. -/
def encode (record : FreeRecord) : Bytes :=
  Bytes.ofNatBE 4 record.start ++ Bytes.ofNatBE 4 record.count

/-- The record in a listing. -/
def line (record : FreeRecord) : String :=
  "start " ++ decimal record.start ++ " count " ++ decimal record.count

end FreeRecord

/-- A chunk of inodes.  Where chunks may have holes, the count of free inodes shares its word with
a mask of the holes and a count of the inodes. -/
inductive InodeRecord where
  | full (start freeCount free : Nat)
  | sparse (start holeMask count freeCount free : Nat)
  deriving DecidableEq, Repr, Inhabited

namespace InodeRecord

/-- The number of bytes of a record. -/
def size : Nat := 16

/-- The record in the sixteen bytes of `data`. -/
def ofBytes (isSparse : Bool) (data : Bytes) : InodeRecord :=
  if isSparse then
    sparse (data.be32 0) (data.be16 4) (data.byteAt 6) (data.byteAt 7) (data.be64 8)
  else full (data.be32 0) (data.be32 4) (data.be64 8)

/-- The sixteen bytes of a record. -/
def encode : InodeRecord → Bytes
  | full start freeCount free =>
    Bytes.ofNatBE 4 start ++ Bytes.ofNatBE 4 freeCount ++ Bytes.ofNatBE 8 free
  | sparse start holeMask count freeCount free =>
    Bytes.ofNatBE 4 start ++ Bytes.ofNatBE 2 holeMask ++ Bytes.ofNatBE 1 count
      ++ Bytes.ofNatBE 1 freeCount ++ Bytes.ofNatBE 8 free

/-- The record in a listing. -/
def line : InodeRecord → String
  | full start freeCount free =>
    "startino " ++ decimal start ++ " freecount " ++ decimal freeCount ++ " free "
      ++ hexWide 16 free
  | sparse start holeMask count freeCount free =>
    "startino " ++ decimal start ++ " holemask " ++ hexWide 4 holeMask ++ " count "
      ++ decimal count ++ " freecount " ++ decimal freeCount ++ " free " ++ hexWide 16 free

end InodeRecord

/-- A stretch of shared blocks. -/
structure RefcountRecord where
  start : Nat
  count : Nat
  references : Nat
  deriving DecidableEq, Repr, Inhabited

namespace RefcountRecord

/-- The number of bytes of a record. -/
def size : Nat := 12

/-- The record in the twelve bytes of `data`. -/
def ofBytes (data : Bytes) : RefcountRecord := ⟨data.be32 0, data.be32 4, data.be32 8⟩

/-- The twelve bytes of a record. -/
def encode (record : RefcountRecord) : Bytes :=
  Bytes.ofNatBE 4 record.start ++ Bytes.ofNatBE 4 record.count
    ++ Bytes.ofNatBE 4 record.references

/-- The record in a listing. -/
def line (record : RefcountRecord) : String :=
  "start " ++ decimal record.start ++ " count " ++ decimal record.count ++ " refcount "
    ++ decimal record.references

end RefcountRecord

/-- The owner of a stretch of blocks. -/
structure OwnerRecord where
  start : Nat
  count : Nat
  owner : Nat
  offset : Nat
  deriving DecidableEq, Repr, Inhabited

namespace OwnerRecord

/-- The number of bytes of a record. -/
def size : Nat := 24

/-- The record in the twenty-four bytes of `data`. -/
def ofBytes (data : Bytes) : OwnerRecord :=
  ⟨data.be32 0, data.be32 4, data.be64 8, data.be64 16⟩

/-- The twenty-four bytes of a record. -/
def encode (record : OwnerRecord) : Bytes :=
  Bytes.ofNatBE 4 record.start ++ Bytes.ofNatBE 4 record.count ++ Bytes.ofNatBE 8 record.owner
    ++ Bytes.ofNatBE 8 record.offset

/-- The record in a listing. -/
def line (record : OwnerRecord) : String :=
  "start " ++ decimal record.start ++ " count " ++ decimal record.count ++ " owner "
    ++ hex record.owner ++ " offset " ++ decimal record.offset

end OwnerRecord

/-- The extent in a listing. -/
def Extent.line (extent : Extent) : String :=
  "startoff " ++ decimal extent.fileOffset ++ " startblock " ++ decimal extent.startBlock
    ++ " count " ++ decimal extent.blockCount ++ (if extent.unwritten then " unwritten" else "")

/-! ## What a magic says -/

/-- What the leaves of a tree hold. -/
inductive Content where
  | freeSpace
  | inodes
  | refcounts
  | owners
  | extents
  deriving DecidableEq, Repr, Inhabited

namespace Content

/-- What the tree with this magic holds, if there is such a tree. -/
def ofMagic? (magic : Nat) : Option Content :=
  if magic ∈ [Magic.freeByBlock, Magic.freeByBlockCrc, Magic.freeBySize, Magic.freeBySizeCrc] then
    some freeSpace
  else if magic ∈
      [Magic.inodeTree, Magic.inodeTreeCrc, Magic.freeInodeTree, Magic.freeInodeTreeCrc] then
    some inodes
  else if magic = Magic.refcountTree then some refcounts
  else if magic = Magic.reverseMapTree then some owners
  else if magic ∈ [Magic.extentMapTree, Magic.extentMapTreeCrc] then some extents
  else none

/-- The number of bytes of a key of an inner block. -/
def keySize : Content → Nat
  | freeSpace => 8
  | inodes => 4
  | refcounts => 4
  | owners => 40
  | extents => 8

end Content

/-- The magics of blocks whose header carries checksums. -/
def crcMagics : List Nat :=
  [ Magic.freeByBlockCrc, Magic.freeBySizeCrc, Magic.inodeTreeCrc, Magic.freeInodeTreeCrc,
    Magic.refcountTree, Magic.reverseMapTree, Magic.extentMapTreeCrc ]

/-! ## Headers -/

/-- The header of a tree block. -/
structure TreeBlock where
  magic : Nat
  /-- The height above the leaves. -/
  level : Nat
  /-- The number of records, or of keys and child pointers. -/
  recordCount : Nat
  leftSibling : Nat
  rightSibling : Nat
  deriving DecidableEq, Repr, Inhabited

namespace TreeBlock

/-- The number of bytes of a header without checksums. -/
def plainHeaderSize : Nat := 16

/-- The number of bytes of a header with checksums. -/
def crcHeaderSize : Nat := 56

/-- The number of bytes of a child pointer. -/
def pointerSize : Nat := 4

/-- Whether the header carries checksums. -/
def hasCrc (block : TreeBlock) : Bool := block.magic ∈ crcMagics

/-- What the tree holds, if the magic is a tree's. -/
def content? (block : TreeBlock) : Option Content := Content.ofMagic? block.magic

/-- Whether the short form of the header is the right one. -/
def isVerified (block : TreeBlock) : Bool := block.content? != some .extents

/-- The number of bytes of the header. -/
def headerSize (block : TreeBlock) : Nat :=
  if block.hasCrc then crcHeaderSize else plainHeaderSize

/-- Whether the block holds records. -/
def isLeaf (block : TreeBlock) : Bool := block.level == 0

/-- The header at the start of `data`, not checked for its length. -/
def readHeader (data : Bytes) : TreeBlock :=
  { magic := data.be32 0
    level := data.be16 4
    recordCount := data.be16 6
    leftSibling := data.be32 8
    rightSibling := data.be32 12 }

/-- The header at the start of the block `data`. -/
def ofBytes (data : Bytes) : Except Fault TreeBlock := do
  data.require "btree block" plainHeaderSize
  let block := readHeader data
  data.require "btree block" block.headerSize
  pure block

/-- The leading sixteen bytes of a header. -/
def encode (block : TreeBlock) : Bytes :=
  Bytes.ofNatBE 4 block.magic ++ Bytes.ofNatBE 2 block.level ++ Bytes.ofNatBE 2 block.recordCount
    ++ Bytes.ofNatBE 4 block.leftSibling ++ Bytes.ofNatBE 4 block.rightSibling

/-! ## Leaves -/

/-- The bytes of the records of `size` bytes each that follow the header. -/
def recordPieces (block : TreeBlock) (data : Bytes) (size : Nat) : Except Fault (List Bytes) := do
  data.require "btree records" (block.headerSize + block.recordCount * size)
  pure (Bytes.cut size block.recordCount (data.drop block.headerSize))

/-- The records of a free-space leaf. -/
def freeRecords (block : TreeBlock) (data : Bytes) : Except Fault (List FreeRecord) :=
  (block.recordPieces data FreeRecord.size).map (·.map FreeRecord.ofBytes)

/-- The records of an inode leaf. -/
def inodeRecords (block : TreeBlock) (data : Bytes) (isSparse : Bool) :
    Except Fault (List InodeRecord) :=
  (block.recordPieces data InodeRecord.size).map (·.map (InodeRecord.ofBytes isSparse))

/-- The records of a reference-count leaf. -/
def refcountRecords (block : TreeBlock) (data : Bytes) : Except Fault (List RefcountRecord) :=
  (block.recordPieces data RefcountRecord.size).map (·.map RefcountRecord.ofBytes)

/-- The records of a reverse-mapping leaf. -/
def ownerRecords (block : TreeBlock) (data : Bytes) : Except Fault (List OwnerRecord) :=
  (block.recordPieces data OwnerRecord.size).map (·.map OwnerRecord.ofBytes)

/-- The records of an extent-map leaf. -/
def extentRecords (block : TreeBlock) (data : Bytes) : Except Fault (List Extent) :=
  (block.recordPieces data Extent.size).map (·.map Extent.ofRecord)

/-! ## Inner blocks -/

/-- How many keys and pointers a block of `size` bytes has room for. -/
def capacity (block : TreeBlock) (size keySize : Nat) : Nat :=
  (size - block.headerSize) / (keySize + pointerSize)

/-- Where the pointers begin: after room for as many keys as the block can have. -/
def pointerOffset (block : TreeBlock) (size keySize : Nat) : Nat :=
  block.headerSize + block.capacity size keySize * keySize

/-- The child blocks, counted from the start of the group. -/
def childPointers (block : TreeBlock) (data : Bytes) (keySize : Nat) : Except Fault (List Nat) :=
  let start := block.pointerOffset data.length keySize
  if block.capacity data.length keySize < block.recordCount then
    .error (.truncated "btree node pointers" (start + block.recordCount * pointerSize) data.length)
  else .ok ((Bytes.cut pointerSize block.recordCount (data.drop start)).map Bytes.toNatBE)

/-! ## Display -/

/-- The lines of a leaf's records. -/
def recordLines (block : TreeBlock) (data : Bytes) (isSparse : Bool) :
    Content → Except Fault (List String)
  | .freeSpace => (block.freeRecords data).map (·.map FreeRecord.line)
  | .inodes => (block.inodeRecords data isSparse).map (·.map InodeRecord.line)
  | .refcounts => (block.refcountRecords data).map (·.map RefcountRecord.line)
  | .owners => (block.ownerRecords data).map (·.map OwnerRecord.line)
  | .extents => (block.extentRecords data).map (·.map Extent.line)

/-- Numbered items under a header, or why there are none. -/
def itemLines (label : Nat → String) : Except Fault (List String) → List String
  | .ok items => items.mapIdx fun i item => "  " ++ label i ++ item
  | .error fault => ["  " ++ fault.message]

/-- The lines of what follows the header. -/
def bodyLines (block : TreeBlock) (data : Bytes) (isSparse : Bool) : List String :=
  match block.content? with
  | none => []
  | some content =>
    if block.isLeaf then
      itemLines (fun i => "rec[" ++ decimal i ++ "] ") (block.recordLines data isSparse content)
    else
      itemLines (fun i => "ptr[" ++ decimal i ++ "] = ")
        ((block.childPointers data content.keySize).map (·.map decimal))

/-- The four letters of the magic. -/
def magicLetters (block : TreeBlock) : String := Utf8.decode (Bytes.ofNatBE 4 block.magic)

/-- The block as text: its header, then its records or pointers. -/
def render (block : TreeBlock) (data : Bytes) (isSparse : Bool) : String :=
  Field.render ("btree block " ++ block.magicLetters)
      (treeBlockFields ++ if block.hasCrc then treeBlockCrcFields else []) data
    ++ lines
      ((if block.isVerified then []
        else ["  warning: long-form tree read with a short-form header, records unverified"])
        ++ block.bodyLines data isSparse)

end TreeBlock

end DiskScope.Xfs
