/-
  DiskScope/Xfs/Group.lean --- allocation groups and how they are loaded.

  WHAT THIS FILE IS FOR.  A filesystem is cut into groups of equal size.  Each begins
  with four sectors: a copy of the superblock, the free-space header, the inode
  header and the free list.  The two headers name the root blocks of up to five
  trees.

  A loaded group holds the raw sectors, the headers decoded from them, the root
  numbers that count, and for each root the block it leads to if that block has a
  magic of its tree.  Under a lenient mode a header with a wrong magic counts as
  all zeros, which leaves its trees without roots.
-/
import DiskScope.Xfs.Structure

set_option autoImplicit false

namespace DiskScope.Xfs

open Text

/-! ## The trees of a group -/

/-- The trees that every group may have. -/
inductive TreeKind where
  | freeByBlock
  | freeBySize
  | inodes
  | freeInodes
  | refcounts
  deriving DecidableEq, Repr, Inhabited

namespace TreeKind

/-- Every tree, in the order in which they are loaded and listed. -/
def all : List TreeKind := [freeByBlock, freeBySize, inodes, freeInodes, refcounts]

/-- The name of a tree. -/
def name : TreeKind → String
  | freeByBlock => "free-space-by-block btree"
  | freeBySize => "free-space-by-size btree"
  | inodes => "inode btree"
  | freeInodes => "free-inode btree"
  | refcounts => "refcount btree"

/-- The first magic that a block of the tree may have. -/
def mainMagic : TreeKind → Nat
  | freeByBlock => Magic.freeByBlock
  | freeBySize => Magic.freeBySize
  | inodes => Magic.inodeTree
  | freeInodes => Magic.freeInodeTree
  | refcounts => Magic.refcountTree

/-- Every magic that a block of the tree may have. -/
def magics : TreeKind → List Nat
  | freeByBlock => [Magic.freeByBlock, Magic.freeByBlockCrc]
  | freeBySize => [Magic.freeBySize, Magic.freeBySizeCrc]
  | inodes => [Magic.inodeTree, Magic.inodeTreeCrc]
  | freeInodes => [Magic.freeInodeTree, Magic.freeInodeTreeCrc]
  | refcounts => [Magic.refcountTree]

/-- Whether a block with this magic belongs to the tree. -/
def accepts (kind : TreeKind) (magic : Nat) : Bool := magic ∈ kind.magics

end TreeKind

/-- One thing for each tree of a group. -/
structure PerTree (α : Type) where
  freeByBlock : α
  freeBySize : α
  inodes : α
  freeInodes : α
  refcounts : α
  deriving DecidableEq, Repr, Inhabited

/-- What belongs to a tree. -/
def PerTree.get {α : Type} (each : PerTree α) : TreeKind → α
  | .freeByBlock => each.freeByBlock
  | .freeBySize => each.freeBySize
  | .inodes => each.inodes
  | .freeInodes => each.freeInodes
  | .refcounts => each.refcounts

/-! ## Headers -/

/-- The free-space header of a group. -/
structure FreeHeader where
  magic : Nat
  sequence : Nat
  length : Nat
  byBlockRoot : Nat
  bySizeRoot : Nat
  reverseMapRoot : Nat
  byBlockLevel : Nat
  bySizeLevel : Nat
  /-- The slot of the free list that the active part begins with. -/
  listFirst : Nat
  /-- The slot of the free list that the active part ends with. -/
  listLast : Nat
  /-- The number of active slots of the free list. -/
  listCount : Nat
  freeBlocks : Nat
  longest : Nat
  refcountRoot : Nat
  deriving DecidableEq, Repr, Inhabited

namespace FreeHeader

/-- The number of bytes that a header needs. -/
def size : Nat := 0x60

/-- The header of a group without one. -/
def zero : FreeHeader := ⟨0, 0, 0, 0, 0, 0, 0, 0, 0, 0, 0, 0, 0, 0⟩

/-- The header in the bytes of its sector. -/
def ofBytes (data : Bytes) : Except Fault FreeHeader := do
  data.require "AGF" size
  pure
    { magic := data.be32 0x00
      sequence := data.be32 0x08
      length := data.be32 0x0C
      byBlockRoot := data.be32 0x10
      bySizeRoot := data.be32 0x14
      reverseMapRoot := data.be32 0x18
      byBlockLevel := data.be32 0x1C
      bySizeLevel := data.be32 0x20
      listFirst := data.be32 0x28
      listLast := data.be32 0x2C
      listCount := data.be32 0x30
      freeBlocks := data.be32 0x34
      longest := data.be32 0x38
      refcountRoot := data.be32 0x58 }

/-- The header in a sector that has its magic, all zeros in one that has not. -/
def ofSector (hasMagic : Bool) (data : Bytes) : Except Fault FreeHeader :=
  if hasMagic then ofBytes data else .ok zero

end FreeHeader

/-- The inode header of a group. -/
structure InodeHeader where
  magic : Nat
  sequence : Nat
  length : Nat
  count : Nat
  root : Nat
  level : Nat
  freeCount : Nat
  newestIno : Nat
  directoryIno : Nat
  /-- Zero where the header does not reach so far. -/
  freeRoot : Nat
  deriving DecidableEq, Repr, Inhabited

namespace InodeHeader

/-- The number of bytes that a header needs. -/
def size : Nat := 0x28

/-- Where the root of the tree of free inodes stands. -/
def freeRootOffset : Nat := 0x148

/-- The header of a group without one. -/
def zero : InodeHeader := ⟨0, 0, 0, 0, 0, 0, 0, 0, 0, 0⟩

/-- The header in the bytes of its sector. -/
def ofBytes (data : Bytes) (isV5 : Bool) : Except Fault InodeHeader := do
  data.require "AGI" size
  pure
    { magic := data.be32 0x00
      sequence := data.be32 0x08
      length := data.be32 0x0C
      count := data.be32 0x10
      root := data.be32 0x14
      level := data.be32 0x18
      freeCount := data.be32 0x1C
      newestIno := data.be32 0x20
      directoryIno := data.be32 0x24
      freeRoot :=
        if isV5 ∧ freeRootOffset + 4 ≤ data.length then data.be32 freeRootOffset else 0 }

/-- The header in a sector that has its magic, all zeros in one that has not. -/
def ofSector (hasMagic : Bool) (data : Bytes) (isV5 : Bool) : Except Fault InodeHeader :=
  if hasMagic then ofBytes data isV5 else .ok zero

end InodeHeader

/-! ## Groups -/

/-- A loaded group. -/
structure Group where
  index : Nat
  /-- The group's copy of the superblock. -/
  sb : Superblock
  freeHeader : FreeHeader
  inodeHeader : InodeHeader
  sbRaw : Bytes
  freeHeaderRaw : Bytes
  inodeHeaderRaw : Bytes
  freeListRaw : Bytes
  /-- The root block of each tree, counted from the start of the group; zero if there is none. -/
  roots : PerTree Nat
  /-- The contents of the root block of each tree that has a good one. -/
  trees : PerTree (Option Bytes)
  deriving DecidableEq, Repr, Inhabited

namespace Group

/-- The root block of a tree, counted from the start of the group. -/
def root (group : Group) (kind : TreeKind) : Nat := group.roots.get kind

/-- The contents of the root block of a tree. -/
def tree? (group : Group) (kind : TreeKind) : Option Bytes := group.trees.get kind

/-- The first block of the group. -/
def baseBlock (group : Group) (agBlocks : Nat) : Nat := group.index * agBlocks

/-- How a group is called. -/
def label (agno : Nat) : String := "AG " ++ decimal agno

/-! ## Loading -/

/-- Refuses a header sector whose magic is wrong. -/
def checkMagic (part location : String) (expected : Nat) (data : Bytes) : Except Fault Unit := do
  data.require "AG header" 4
  let actual := data.be32 0
  if actual = expected then .ok () else .error (.badMagic part location expected actual)

/-- The group's copy of the superblock, held to the same checks as the primary one `sb`, which
stands in for a copy that cannot be read. -/
def loadCopy (sb : Superblock) (agno : Nat) (mode : Mode) (data : Bytes) : Traced Superblock :=
  match Superblock.ofBytes data with
  | .ok copy => do
    let _ ← mode.tolerate (copy.validate (label agno ++ " superblock") mode)
    pure copy
  | .error fault => do
    let _ ← mode.tolerateCheck (.error fault)
    pure sb

/-- The roots that count: those of features that the filesystem has. -/
def rootsOf (sb : Superblock) (freeHeader : FreeHeader) (inodeHeader : InodeHeader) :
    PerTree Nat :=
  { freeByBlock := freeHeader.byBlockRoot
    freeBySize := freeHeader.bySizeRoot
    inodes := inodeHeader.root
    freeInodes := if sb.hasFreeInodeTree then inodeHeader.freeRoot else 0
    refcounts := if sb.hasReflink then freeHeader.refcountRoot else 0 }

/-- The root block of a tree, if the group has the tree and the block is one of its own; `read` gives
the contents of a block. -/
def loadTree (read : Nat → Except Fault Bytes) (sb : Superblock) (agno : Nat) (mode : Mode)
    (roots : PerTree Nat) (kind : TreeKind) : Traced (Option Bytes) :=
  if roots.get kind = 0 then do
    Traced.debug (label agno ++ ": " ++ kind.name ++ " absent")
    pure none
  else do
    let block := sb.groupBlock agno + roots.get kind
    let data ← read block
    data.require "btree block" 4
    let magic := data.be32 0
    if kind.accepts magic then
      Traced.debug (label agno ++ ": " ++ kind.name ++ " root at block " ++ decimal block)
      pure (some data)
    else
      let _ ← mode.tolerateCheck (.error
        (.badMagic kind.name (label agno ++ " block " ++ decimal block) kind.mainMagic magic))
      pure none

/-- Tells that a header belongs to another group. -/
def noteSequence (agno : Nat) (part : String) (present : Bool) (sequence : Nat) : Traced Unit :=
  if present && sequence != agno then
    Traced.warn (label agno ++ ": " ++ part ++ " sequence number is " ++ decimal sequence)
  else pure ()

/-- Loads group `agno`. -/
def load (reader : BlockReader) (sb : Superblock) (mode : Mode) (agno : Nat) : Traced Group := do
  let sector := sb.sectorSize
  let slot (n : Nat) : String := label agno ++ " sector " ++ decimal n
  Traced.debug (label agno ++ ": reading headers at byte " ++ decimal (sb.groupOffset agno))
  let headers ← reader.readRaw (sb.groupOffset agno) (4 * sector)
  let sbRaw := headers.slice 0 sector
  let freeHeaderRaw := headers.slice sector sector
  let inodeHeaderRaw := headers.slice (2 * sector) sector
  let freeListRaw := headers.slice (3 * sector) sector
  let copy ← loadCopy sb agno mode sbRaw
  let hasFreeHeader ← mode.tolerateCheck (checkMagic "AGF" (slot 1) Magic.agf freeHeaderRaw)
  let hasInodeHeader ← mode.tolerateCheck (checkMagic "AGI" (slot 2) Magic.agi inodeHeaderRaw)
  -- Before version 5 the free list is a bare array without a magic.
  if sb.isV5 then
    let _ ← mode.tolerateCheck (checkMagic "AGFL" (slot 3) Magic.agfl freeListRaw)
  let freeHeader ← FreeHeader.ofSector hasFreeHeader freeHeaderRaw
  let inodeHeader ← InodeHeader.ofSector hasInodeHeader inodeHeaderRaw sb.isV5
  noteSequence agno "AGF" hasFreeHeader freeHeader.sequence
  noteSequence agno "AGI" hasInodeHeader inodeHeader.sequence
  let roots := rootsOf sb freeHeader inodeHeader
  let freeByBlock ← loadTree reader.block sb agno mode roots .freeByBlock
  let freeBySize ← loadTree reader.block sb agno mode roots .freeBySize
  let inodes ← loadTree reader.block sb agno mode roots .inodes
  let freeInodes ← loadTree reader.block sb agno mode roots .freeInodes
  let refcounts ← loadTree reader.block sb agno mode roots .refcounts
  pure
    { index := agno
      sb := copy
      freeHeader, inodeHeader, sbRaw, freeHeaderRaw, inodeHeaderRaw, freeListRaw, roots
      trees := { freeByBlock, freeBySize, inodes, freeInodes, refcounts } }

/-- Loads the `count` groups from `agno` on. -/
def loadFrom (reader : BlockReader) (sb : Superblock) (mode : Mode) :
    (count agno : Nat) → Traced (List Group)
  | 0, _ => pure []
  | count + 1, agno => do
    let group ← load reader sb mode agno
    let rest ← loadFrom reader sb mode count (agno + 1)
    pure (group :: rest)

/-- Loads every group. -/
def loadAll (reader : BlockReader) (sb : Superblock) (mode : Mode) : Traced (List Group) := do
  let groups ← loadFrom reader sb mode sb.agCount 0
  Traced.info ("loaded " ++ decimal groups.length ++ " allocation groups ("
    ++ decimal sb.agBlocks ++ " blocks each)")
  pure groups

/-! ## Display -/

/-- The blocks on the active part of the free list, which wraps around at the last slot. -/
def freeList (group : Group) (isV5 : Bool) : List Nat :=
  let slots := Structure.freeListSlots group.freeListRaw isV5
  if slots.isEmpty then []
  else
    (List.range group.freeHeader.listCount).map fun i =>
      slots.getD ((group.freeHeader.listFirst + i) % slots.length) 0

/-- What became of a tree. -/
def treeState (group : Group) (kind : TreeKind) : String :=
  if group.root kind = 0 then "absent"
  else
    "root " ++ decimal (group.root kind)
      ++ (if (group.tree? kind).isSome then ", loaded" else ", rejected")

/-- The group as text. -/
def render (group : Group) (isV5 : Bool) : String :=
  lines ["allocation group " ++ decimal group.index]
    ++ Field.render "AGF" agfFields group.freeHeaderRaw
    ++ Field.render "AGI" agiFields group.inodeHeaderRaw
    ++ (if isV5 then Field.render "AGFL" agflFields group.freeListRaw else "")
    ++ lines
      (["free list: " ++ numberList (group.freeList isV5), "trees:"]
        ++ TreeKind.all.map fun kind =>
          "  " ++ padRight 26 kind.name ++ " " ++ group.treeState kind)

end Group

end DiskScope.Xfs
