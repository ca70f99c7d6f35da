/-
  DiskScope/Xfs/Structure.lean --- the structures that can be recognised and shown.

  WHAT THIS FILE IS FOR.  Every known structure has a short name, a leading magic and a
  description.  `identify` finds the structure that a buffer begins with: the
  four-byte magics are tried before the two-byte ones.

  `render` shows a buffer as any structure, whether it is one or not.  What cannot
  be decoded is shown with the reason and as a hex dump, so nothing is lost.
-/
import DiskScope.Xfs.Inode

set_option autoImplicit false

namespace DiskScope.Xfs

open Text

/-- A structure that can be recognised. -/
inductive Structure where
  | superblock
  | agf
  | agi
  | agfl
  | freeByBlock
  | freeByBlockCrc
  | freeBySize
  | freeBySizeCrc
  | inodeTree
  | inodeTreeCrc
  | freeInodeTree
  | freeInodeTreeCrc
  | refcountTree
  | reverseMapTree
  | extentMapTree
  | extentMapTreeCrc
  | logRecord
  | inode
  | quota
  deriving DecidableEq, Repr, Inhabited

/-- The bytes that a structure begins with, as a big-endian integer. -/
inductive LeadingMagic where
  | four (value : Nat)
  | two (value : Nat)
  deriving DecidableEq, Repr, Inhabited

namespace LeadingMagic

/-- The number of bytes of a magic. -/
def size : LeadingMagic → Nat
  | four _ => 4
  | two _ => 2

/-- The integer of a magic. -/
def value : LeadingMagic → Nat
  | four value => value
  | two value => value

/-- Whether `data` begins with the magic. -/
def leads (magic : LeadingMagic) (data : Bytes) : Bool :=
  let head := data.take magic.size
  head.length == magic.size && Bytes.toNatBE head == magic.value

/-- The magic with a fixed number of digits. -/
def render (magic : LeadingMagic) : String := hexWide (2 * magic.size) magic.value

end LeadingMagic

namespace Structure

/-! ## The table -/

/-- Every structure, in the order in which magics are tried. -/
def all : List Structure :=
  [ superblock, agf, agi, agfl, freeByBlock, freeByBlockCrc, freeBySize, freeBySizeCrc, inodeTree,
    inodeTreeCrc, freeInodeTree, freeInodeTreeCrc, refcountTree, reverseMapTree, extentMapTree,
    extentMapTreeCrc, logRecord, inode, quota ]

/-- The short name by which a structure is asked for. -/
def name : Structure → String
  | superblock => "sb"
  | agf => "agf"
  | agi => "agi"
  | agfl => "agfl"
  | freeByBlock => "abtb"
  | freeByBlockCrc => "ab3b"
  | freeBySize => "abtc"
  | freeBySizeCrc => "ab3c"
  | inodeTree => "iabt"
  | inodeTreeCrc => "iab3"
  | freeInodeTree => "fibt"
  | freeInodeTreeCrc => "fib3"
  | refcountTree => "refc"
  | reverseMapTree => "rmap"
  | extentMapTree => "bmap"
  | extentMapTreeCrc => "bma3"
  | logRecord => "log"
  | inode => "inode"
  | quota => "dquot"

/-- The magic that a structure begins with. -/
def magic : Structure → LeadingMagic
  | superblock => .four Magic.superblock
  | agf => .four Magic.agf
  | agi => .four Magic.agi
  | agfl => .four Magic.agfl
  | freeByBlock => .four Magic.freeByBlock
  | freeByBlockCrc => .four Magic.freeByBlockCrc
  | freeBySize => .four Magic.freeBySize
  | freeBySizeCrc => .four Magic.freeBySizeCrc
  | inodeTree => .four Magic.inodeTree
  | inodeTreeCrc => .four Magic.inodeTreeCrc
  | freeInodeTree => .four Magic.freeInodeTree
  | freeInodeTreeCrc => .four Magic.freeInodeTreeCrc
  | refcountTree => .four Magic.refcountTree
  | reverseMapTree => .four Magic.reverseMapTree
  | extentMapTree => .four Magic.extentMapTree
  | extentMapTreeCrc => .four Magic.extentMapTreeCrc
  | logRecord => .four Magic.logRecord
  | inode => .two Magic.inode
  | quota => .two Magic.quota

/-- What a structure is. -/
def description : Structure → String
  | superblock => "superblock"
  | agf => "AG free-space header"
  | agi => "AG inode header"
  | agfl => "AG free list"
  | freeByBlock => "free space by block btree"
  | freeByBlockCrc => "free space by block btree (crc)"
  | freeBySize => "free space by size btree"
  | freeBySizeCrc => "free space by size btree (crc)"
  | inodeTree => "inode btree"
  | inodeTreeCrc => "inode btree (crc)"
  | freeInodeTree => "free inode btree"
  | freeInodeTreeCrc => "free inode btree (crc)"
  | refcountTree => "reference count btree"
  | reverseMapTree => "reverse mapping btree"
  | extentMapTree => "extent map btree"
  | extentMapTreeCrc => "extent map btree (crc)"
  | logRecord => "log record header"
  | inode => "inode"
  | quota => "quota record"

/-- Whether a structure is a block of one of the on-disk trees. -/
def isTree : Structure → Bool
  | freeByBlock | freeByBlockCrc | freeBySize | freeBySizeCrc | inodeTree | inodeTreeCrc
  | freeInodeTree | freeInodeTreeCrc | refcountTree | reverseMapTree | extentMapTree
  | extentMapTreeCrc => true
  | _ => false

/-- The structure with this short name. -/
def byName? (name : String) : Option Structure :=
  all.find? fun kind => kind.name == name

/-- The structure that `data` begins with. -/
def identify (data : Bytes) : Option Structure :=
  all.find? fun kind => kind.magic.leads data

/-- The listing of every structure. -/
def listing : String :=
  lines (all.map fun kind =>
    padRight 6 kind.name ++ " " ++ padRight 10 kind.magic.render ++ " " ++ kind.description)

/-! ## Display -/

/-- Where the block numbers of a free list begin. -/
def freeListOffset (isV5 : Bool) : Nat := if isV5 then 0x24 else 0

/-- The block numbers in the slots of a free list. -/
def freeListSlots (data : Bytes) (isV5 : Bool) : List Nat :=
  (Bytes.wholePieces 4 (data.drop (freeListOffset isV5))).map Bytes.toNatBE

/-- The mark of a slot that is not in use. -/
def unusedSlot : Nat := 0xFFFFFFFF

/-- A free list as text. -/
def renderFreeList (data : Bytes) (isV5 : Bool) : String :=
  (if isV5 then Field.render "AGFL" agflFields data else "")
    ++ lines ["free list slots in use: "
        ++ numberList ((freeListSlots data isV5).filter (· ≠ unusedSlot))]

/-- The number that an inode gives itself, zero where it has none. -/
def ownIno (data : Bytes) : Nat :=
  if Inode.inoOffset + 8 ≤ data.length ∧ 3 ≤ data.byteAt Inode.versionOffset then
    data.be64 Inode.inoOffset
  else 0

/-- A tree block as text. -/
def renderTree (data : Bytes) (isSparse : Bool) : Except Fault String := do
  let block ← TreeBlock.ofBytes data
  pure (block.render data isSparse)

/-- The text of `data` as a structure, with the features of `sb` if there is one. -/
def decode (kind : Structure) (data : Bytes) (sb : Option Superblock) : Except Fault String :=
  match kind with
  | superblock => do
    let decoded ← Superblock.ofBytes data
    pure decoded.render
  | agf => .ok (Field.render "AGF" agfFields data)
  | agi => .ok (Field.render "AGI" agiFields data)
  | agfl => .ok (renderFreeList data (sb.any Superblock.isV5))
  | inode => do
    let decoded ← Inode.ofBytes data (ownIno data) (sb.any Superblock.hasFileType)
    pure decoded.render
  | quota => .ok (Field.render "dquot" quotaFields data)
  | logRecord => .ok (Field.render "log record header" logRecordFields data)
  | _ =>
    if kind.isTree then renderTree data (sb.any Superblock.hasSparseInodes)
    else .error (.unknownStructure kind.name)

/-- The text of `data` as a structure; where that fails, the reason and a dump. -/
def render (kind : Structure) (data : Bytes) (sb : Option Superblock) : String :=
  match kind.decode data sb with
  | .ok text => text
  | .error fault =>
    lines ["cannot decode as " ++ kind.name ++ ": " ++ fault.message] ++ hexdump data 0

end Structure

end DiskScope.Xfs
