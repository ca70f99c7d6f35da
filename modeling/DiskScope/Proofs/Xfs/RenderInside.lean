/-
  DiskScope/Proofs/Xfs/RenderInside.lean --- showing bytes never reads outside of them.

  WHAT THIS FILE IS FOR.  Any bytes can be shown as any structure, also bytes that are too
  short for it or that are something else.  Here the way from a buffer to its text is said
  again with reads that have no outcome outside (`Guarded`), structure by structure, and shown
  to be the way that is taken.

  WHAT CATCHES A FAULT.  A structure that cannot be decoded is dumped, and a tree block whose
  records are cut off says so.  Both catch a fault, but neither can catch a read outside,
  which is no fault (`attempt`).

  MAIN STATEMENTS.

      table_eq     a field that runs past the end is not read
      leaf_eq      the records of a leaf, piece by piece
      decode_eq    every structure
      render_eq    and what is shown where decoding fails
-/
import DiskScope.Proofs.Xfs.ChildPointers
import DiskScope.Proofs.Xfs.InodeInside
import DiskScope.Xfs.Structure

set_option autoImplicit false

namespace DiskScope

open Text

theorem Bytes.slice_self (data : Bytes) : data.slice 0 data.length = data := by
  rw [slice, List.drop_zero, List.take_length]

/-- The whole string as a number. -/
theorem Bytes.beAt_self {data : Bytes} {width : Nat} (h : data.length = width) :
    data.beAt 0 width = data.toNatBE := by
  rw [beAt, ← h, slice_self]

namespace Guarded

variable {α β : Type} {data raw : Bytes}

/-- A run together with its fault. -/
def attempt (run : Guarded α) : Guarded (Except Fault α) := ExceptT.lift run.run

theorem plain_pure (a : α) : plain (pure a) = pure a := rfl

/-- What is made of the value of a run that reads nothing outside reads nothing outside. -/
theorem plain_bind_pure (run : Except Fault α) (f : α → β) :
    (plain run >>= fun a => pure (f a)) = plain (run.map f) := by
  cases run <;> rfl

theorem attempt_plain (run : Except Fault α) : attempt (plain run) = pure run := rfl

/-! ## Tables of fields -/

/-- The text before the first zero byte. -/
def textBeforeZero (raw : Bytes) : Guarded String := do
  let text ← bytes raw 0 raw.untilZero.length
  pure (Utf8.decode text)

/-- Bytes that identify something. -/
def uuid (raw : Bytes) : Guarded String :=
  if raw.length = 16 then do
    let first ← bytes raw 0 4
    let second ← bytes raw 4 2
    let third ← bytes raw 6 2
    let fourth ← bytes raw 8 2
    let fifth ← bytes raw 10 6
    pure (joinWith "-"
      [bytesHex first, bytesHex second, bytesHex third, bytesHex fourth, bytesHex fifth])
  else pure (bytesHex raw)

/-- The text of a stored value. -/
def display (encoding : Encoding) (raw : Bytes) : Guarded String :=
  match encoding with
  | .number width => do
    let n ← number raw 0 width
    pure (decimal n)
  | .word width => do
    let n ← number raw 0 width
    pure (hexWide (2 * width) n)
  | .uuid => uuid raw
  | .text _ => do
    let text ← textBeforeZero raw
    pure ("\"" ++ text ++ "\"")

/-- The text of a field, if all of it is there. -/
def format? (field : Field) (data : Bytes) : Guarded (Option String) :=
  if field.offset + field.encoding.width ≤ data.length then do
    let raw ← bytes data field.offset field.encoding.width
    let text ← display field.encoding raw
    pure (some text)
  else pure none

/-- A titled table. -/
def table (title : String) (fields : List Field) (data : Bytes) : Guarded String := do
  let texts ← fields.mapM fun field => do
    let value ← format? field data
    pure ("  " ++ padRight (Field.column fields) field.name ++ " = " ++ value.getD "<truncated>")
  pure (lines ((title ++ ":") :: texts))

theorem textBeforeZero_eq : textBeforeZero raw = pure (Utf8.decode raw.untilZero) := by
  have hfront : raw.untilZero <+: raw := List.takeWhile_prefix _
  have hlen : 0 + raw.untilZero.length ≤ raw.length := by
    rw [Nat.zero_add]
    exact hfront.length_le
  rw [textBeforeZero, bytes_of_le hlen, pure_bind, Bytes.slice, List.drop_zero,
    ← List.prefix_iff_eq_take.1 hfront]

theorem uuid_eq : uuid raw = pure (Text.uuid raw) := by
  unfold uuid Text.uuid
  split
  · rename_i hlen
    simp (disch := omega) only [bytes_of_le, pure_bind]
  · rfl

theorem display_eq {encoding : Encoding} (hwidth : raw.length = encoding.width) :
    display encoding raw = pure (encoding.display raw) := by
  cases encoding with
  | number width =>
    have hwidth : raw.length = width := hwidth
    rw [display, number_of_le (by omega), Bytes.beAt_self hwidth]
    rfl
  | word width =>
    have hwidth : raw.length = width := hwidth
    rw [display, number_of_le (by omega), Bytes.beAt_self hwidth]
    rfl
  | uuid => exact uuid_eq
  | text width =>
    rw [display, textBeforeZero_eq]
    rfl

theorem format?_eq (field : Field) : format? field data = pure (field.format? data) := by
  unfold format? Field.format?
  split
  · rename_i hlen
    rw [bytes_of_le hlen, pure_bind, display_eq (Bytes.length_slice_of_le hlen)]
    rfl
  · rfl

/-- Showing bytes as a table stays inside, wherever they end. -/
theorem table_eq (title : String) (fields : List Field) :
    table title fields data = pure (Field.render title fields data) := by
  rw [table, mapM_eq_plain fun field _ => by rw [format?_eq, pure_bind], pure_bind]
  rfl

end Guarded

namespace Xfs.Guarded

open DiskScope.Guarded

variable {α : Type} {data : Bytes} {block : TreeBlock} {size : Nat}

/-! ## Superblocks -/

/-- A superblock. -/
def superblock (data : Bytes) : Guarded Superblock := do
  plain (data.require "superblock" Superblock.baseSize)
  let versionWord ← number data 0x64 2
  let isV5 := Superblock.versionOf versionWord = 5
  plain (if isV5 then data.require "v5 superblock" Superblock.v5Size else pure ())
  let v5Word (offset : Nat) : Guarded Nat := if isV5 then number data offset 4 else pure 0
  let magic ← number data 0x00 4
  let blockSize ← number data 0x04 4
  let blocks ← number data 0x08 8
  let uuid ← bytes data 0x20 16
  let rootIno ← number data 0x38 8
  let agBlocks ← number data 0x54 4
  let agCount ← number data 0x58 4
  let sectorSize ← number data 0x66 2
  let inodeSize ← number data 0x68 2
  let inodesPerBlock ← number data 0x6A 2
  let name ← bytes data 0x6C 12
  let label ← textBeforeZero name
  let blockLog ← number data 0x78 1
  let sectorLog ← number data 0x79 1
  let inodeLog ← number data 0x7A 1
  let inodesPerBlockLog ← number data 0x7B 1
  let agBlockLog ← number data 0x7C 1
  let inodeCount ← number data 0x80 8
  let freeInodes ← number data 0x88 8
  let freeBlocks ← number data 0x90 8
  let features2 ← number data 0xC8 4
  let compat ← v5Word 0xD0
  let roCompat ← v5Word 0xD4
  let incompat ← v5Word 0xD8
  let logIncompat ← v5Word 0xDC
  let raw ← bytes data 0 (min data.length Superblock.v5Size)
  pure
    { magic, blockSize, blocks, uuid, rootIno, agBlocks, agCount, versionWord, sectorSize,
      inodeSize, inodesPerBlock, label, blockLog, sectorLog, inodeLog, inodesPerBlockLog,
      agBlockLog, inodeCount, freeInodes, freeBlocks, features2, compat, roCompat, incompat,
      logIncompat, raw }

theorem superblock_eq : superblock data = plain (Superblock.ofBytes data) := by
  refine plain_bind_congr fun _ hbase => ?_
  have hlen : 0xD0 ≤ data.length := Bytes.require_eq_ok_iff.1 hbase
  have hraw : data.slice 0 (min data.length Superblock.v5Size) = data.take Superblock.v5Size := by
    rw [Bytes.slice, List.drop_zero, Nat.min_comm, ← List.take_eq_take_min]
  rw [number_of_le (by omega), pure_bind]
  by_cases hV5 : Superblock.versionOf (data.be16 0x64) = 5
  · simp only [if_pos hV5]
    refine plain_bind_congr fun _ hlong => ?_
    have hlong : 0x108 ≤ data.length := Bytes.require_eq_ok_iff.1 hlong
    simp (disch := omega) only [number_of_le, bytes_of_le, textBeforeZero_eq, pure_bind, hraw,
      Bytes.byteAt_eq_beAt]
    rfl
  · simp only [if_neg hV5, plain_pure, pure_bind]
    simp (disch := omega) only [number_of_le, bytes_of_le, textBeforeZero_eq, pure_bind, hraw,
      Bytes.byteAt_eq_beAt]

/-! ## Tree blocks -/

/-- The header of a tree block. -/
def treeBlock (data : Bytes) : Guarded TreeBlock := do
  plain (data.require "btree block" TreeBlock.plainHeaderSize)
  let magic ← number data 0 4
  let level ← number data 4 2
  let recordCount ← number data 6 2
  let leftSibling ← number data 8 4
  let rightSibling ← number data 12 4
  let block : TreeBlock := { magic, level, recordCount, leftSibling, rightSibling }
  plain (data.require "btree block" block.headerSize)
  pure block

theorem treeBlock_eq : treeBlock data = plain (TreeBlock.ofBytes data) := by
  refine plain_bind_congr fun _ hplain => ?_
  have hlen : 16 ≤ data.length := Bytes.require_eq_ok_iff.1 hplain
  simp (disch := omega) only [number_of_le, pure_bind]
  exact plain_bind_congr fun _ _ => rfl

/-- The records of a leaf, each read from its own piece of `size` bytes. -/
def leaf (read : Bytes → Guarded α) (size : Nat) (block : TreeBlock) (data : Bytes) :
    Guarded (List α) := do
  plain (data.require "btree records" (block.headerSize + block.recordCount * size))
  let records ← bytes data block.headerSize (block.recordCount * size)
  (Bytes.cut size block.recordCount records).mapM read

/-- The pieces of the records are cut from the bytes of all of them. -/
theorem cut_records (size : Nat) (block : TreeBlock) (data : Bytes) :
    Bytes.cut size block.recordCount (data.slice block.headerSize (block.recordCount * size)) =
      Bytes.cut size block.recordCount (data.drop block.headerSize) := by
  rw [Bytes.cut_eq_map, Bytes.cut_eq_map]
  refine List.map_congr_left fun i hi => ?_
  have hend : (i + 1) * size ≤ block.recordCount * size :=
    Nat.mul_le_mul_right size (List.mem_range.1 hi)
  rw [Nat.succ_mul] at hend
  rw [Bytes.slice_slice hend, Bytes.slice_drop]

/-- A reader of records that stays inside its piece makes one of leaves that stays inside. -/
theorem leaf_eq {read : Bytes → Guarded α} {decode : Bytes → α}
    (hread : ∀ piece, piece.length = size → read piece = pure (decode piece)) :
    leaf read size block data = plain ((block.recordPieces data size).map (·.map decode)) := by
  rcases Nat.lt_or_ge data.length (block.headerSize + block.recordCount * size) with hlt | hle
  · rw [leaf, TreeBlock.recordPieces, Bytes.require_of_lt hlt]
    rfl
  · have hbehind : block.recordCount * size ≤ (data.drop block.headerSize).length := by
      rw [List.length_drop]
      omega
    rw [leaf, TreeBlock.recordPieces, Bytes.require_eq_ok_iff.2 hle, bytes_of_le hle, pure_bind,
      cut_records, mapM_eq_plain fun piece hpiece =>
        hread piece (Bytes.length_of_mem_cut hbehind hpiece)]
    rfl

/-- A record of free blocks. -/
def freeRecord (piece : Bytes) : Guarded FreeRecord := do
  let start ← number piece 0 4
  let count ← number piece 4 4
  pure { start, count }

/-- A record of inodes. -/
def inodeRecord (isSparse : Bool) (piece : Bytes) : Guarded InodeRecord := do
  let start ← number piece 0 4
  let free ← number piece 8 8
  if isSparse then do
    let holeMask ← number piece 4 2
    let count ← number piece 6 1
    let freeCount ← number piece 7 1
    pure (.sparse start holeMask count freeCount free)
  else do
    let freeCount ← number piece 4 4
    pure (.full start freeCount free)

/-- A record of shared blocks. -/
def refcountRecord (piece : Bytes) : Guarded RefcountRecord := do
  let start ← number piece 0 4
  let count ← number piece 4 4
  let references ← number piece 8 4
  pure { start, count, references }

/-- A record of owned blocks. -/
def ownerRecord (piece : Bytes) : Guarded OwnerRecord := do
  let start ← number piece 0 4
  let count ← number piece 4 4
  let owner ← number piece 8 8
  let offset ← number piece 16 8
  pure { start, count, owner, offset }

section Records

variable {piece : Bytes}

theorem freeRecord_eq (hsize : piece.length = FreeRecord.size) :
    freeRecord piece = pure (FreeRecord.ofBytes piece) := by
  have hlen : piece.length = 8 := hsize
  simp (disch := omega) only [freeRecord, number_of_le, pure_bind, FreeRecord.ofBytes]

theorem inodeRecord_eq (isSparse : Bool) (hsize : piece.length = InodeRecord.size) :
    inodeRecord isSparse piece = pure (InodeRecord.ofBytes isSparse piece) := by
  have hlen : piece.length = 16 := hsize
  cases isSparse with
  | true =>
    simp (disch := omega) only [inodeRecord, number_of_le, pure_bind, if_true, InodeRecord.ofBytes,
      Bytes.byteAt_eq_beAt]
  | false =>
    simp (disch := omega) only [inodeRecord, number_of_le, pure_bind, InodeRecord.ofBytes]
    rfl

theorem refcountRecord_eq (hsize : piece.length = RefcountRecord.size) :
    refcountRecord piece = pure (RefcountRecord.ofBytes piece) := by
  have hlen : piece.length = 12 := hsize
  simp (disch := omega) only [refcountRecord, number_of_le, pure_bind, RefcountRecord.ofBytes]

theorem ownerRecord_eq (hsize : piece.length = OwnerRecord.size) :
    ownerRecord piece = pure (OwnerRecord.ofBytes piece) := by
  have hlen : piece.length = 24 := hsize
  simp (disch := omega) only [ownerRecord, number_of_le, pure_bind, OwnerRecord.ofBytes]

theorem extent_eq (hsize : piece.length = Extent.size) :
    extent piece = pure (Extent.ofRecord piece) := by
  have hlen : piece.length = 16 := hsize
  simp (disch := omega) only [extent, number_of_le, pure_bind]
  rfl

end Records

/-- The lines of a leaf's records. -/
def recordLines (block : TreeBlock) (data : Bytes) (isSparse : Bool) :
    Content → Guarded (List String)
  | .freeSpace => do
    let records ← leaf freeRecord FreeRecord.size block data
    pure (records.map FreeRecord.line)
  | .inodes => do
    let records ← leaf (inodeRecord isSparse) InodeRecord.size block data
    pure (records.map InodeRecord.line)
  | .refcounts => do
    let records ← leaf refcountRecord RefcountRecord.size block data
    pure (records.map RefcountRecord.line)
  | .owners => do
    let records ← leaf ownerRecord OwnerRecord.size block data
    pure (records.map OwnerRecord.line)
  | .extents => do
    let records ← leaf extent Extent.size block data
    pure (records.map Extent.line)

/-- The records of every layout are read from their own bytes. -/
theorem recordLines_eq (isSparse : Bool) (content : Content) :
    recordLines block data isSparse content = plain (block.recordLines data isSparse content) := by
  cases content with
  | freeSpace =>
    rw [recordLines, leaf_eq fun _ => freeRecord_eq]
    exact plain_bind_pure _ _
  | inodes =>
    rw [recordLines, leaf_eq fun _ => inodeRecord_eq isSparse]
    exact plain_bind_pure _ _
  | refcounts =>
    rw [recordLines, leaf_eq fun _ => refcountRecord_eq]
    exact plain_bind_pure _ _
  | owners =>
    rw [recordLines, leaf_eq fun _ => ownerRecord_eq]
    exact plain_bind_pure _ _
  | extents =>
    rw [recordLines, leaf_eq fun _ => extent_eq]
    exact plain_bind_pure _ _

/-- The lines of what follows the header of a tree block. -/
def bodyLines (block : TreeBlock) (data : Bytes) (isSparse : Bool) : Guarded (List String) :=
  match block.content? with
  | none => pure []
  | some content =>
    if block.isLeaf then do
      let records ← attempt (recordLines block data isSparse content)
      pure (TreeBlock.itemLines (fun i => "rec[" ++ decimal i ++ "] ") records)
    else do
      let children ← attempt (pointers block data content.keySize)
      pure (TreeBlock.itemLines (fun i => "ptr[" ++ decimal i ++ "] = ")
        (children.map (·.map decimal)))

/-- A tree block as text. -/
def treeText (data : Bytes) (isSparse : Bool) : Guarded String := do
  let block ← treeBlock data
  let header ← table ("btree block " ++ block.magicLetters)
    (treeBlockFields ++ if block.hasCrc then treeBlockCrcFields else []) data
  let body ← bodyLines block data isSparse
  pure (header ++ lines
    ((if block.isVerified then []
      else ["  warning: long-form tree read with a short-form header, records unverified"]) ++ body))

theorem bodyLines_eq (hheader : block.headerSize ≤ data.length) (isSparse : Bool) :
    bodyLines block data isSparse = pure (block.bodyLines data isSparse) := by
  rw [bodyLines, TreeBlock.bodyLines]
  cases block.content? with
  | none => rfl
  | some content =>
    dsimp only
    split
    · rw [recordLines_eq, attempt_plain, pure_bind]
    · rw [pointers_eq hheader, attempt_plain, pure_bind]

theorem treeText_eq (isSparse : Bool) :
    treeText data isSparse = plain (Structure.renderTree data isSparse) := by
  rw [treeText, treeBlock_eq]
  refine plain_bind_congr fun block hblock => ?_
  have hheader := (TreeBlock.ofBytes_eq_ok_iff.1 hblock).2
  rw [table_eq, pure_bind, bodyLines_eq hheader, pure_bind]
  rfl

/-! ## Structures -/

/-- A free list as text. -/
def freeListText (data : Bytes) (isV5 : Bool) : Guarded String := do
  let header ← if isV5 then table "AGFL" agflFields data else pure ""
  let slots ← (Bytes.wholePieces 4 (data.drop (Structure.freeListOffset isV5))).mapM
    fun piece => number piece 0 4
  pure (header ++ lines ["free list slots in use: "
    ++ numberList (slots.filter (· ≠ Structure.unusedSlot))])

/-- The number that an inode gives itself. -/
def ownIno (data : Bytes) : Guarded Nat :=
  if Inode.inoOffset + 8 ≤ data.length then do
    let version ← number data Inode.versionOffset 1
    if 3 ≤ version then number data Inode.inoOffset 8 else pure 0
  else pure 0

/-- The text of bytes as a structure. -/
def decode (kind : Structure) (data : Bytes) (sb : Option Superblock) : Guarded String :=
  match kind with
  | .superblock => do
    let decoded ← superblock data
    -- The text is made of the bytes that the superblock keeps.
    let fields ← table "superblock" superblockFields decoded.raw
    let added ←
      if decoded.isV5 then table "v5 fields" superblockV5Fields decoded.raw else pure ""
    pure (fields ++ added ++ lines decoded.featureLines)
  | .agf => table "AGF" agfFields data
  | .agi => table "AGI" agiFields data
  | .agfl => freeListText data (sb.any Superblock.isV5)
  | .inode => do
    let ino ← ownIno data
    let decoded ← inode data ino (sb.any Superblock.hasFileType)
    pure decoded.render
  | .quota => table "dquot" quotaFields data
  | .logRecord => table "log record header" logRecordFields data
  | _ =>
    if kind.isTree then treeText data (sb.any Superblock.hasSparseInodes)
    else plain (.error (.unknownStructure kind.name))

/-- The text of bytes as a structure; where that fails, the reason and a dump. -/
def render (kind : Structure) (data : Bytes) (sb : Option Superblock) : Guarded String := do
  let decoded ← attempt (decode kind data sb)
  match decoded with
  | .ok text => pure text
  | .error fault =>
    pure (lines ["cannot decode as " ++ kind.name ++ ": " ++ fault.message] ++ hexdump data 0)

theorem freeListText_eq (isV5 : Bool) :
    freeListText data isV5 = pure (Structure.renderFreeList data isV5) := by
  have hslots : (Bytes.wholePieces 4 (data.drop (Structure.freeListOffset isV5))).mapM
      (fun piece => number piece 0 4) = pure (Structure.freeListSlots data isV5) := by
    refine mapM_eq_plain fun piece hpiece => ?_
    have hlen : piece.length = 4 := Bytes.length_of_mem_cut (Nat.div_mul_le_self _ _) hpiece
    rw [number_of_le (by omega), Bytes.beAt_self hlen]
  rw [freeListText, hslots]
  cases isV5 with
  | true =>
    rw [if_pos rfl, table_eq, pure_bind]
    rfl
  | false => rfl

theorem ownIno_eq : ownIno data = pure (Structure.ownIno data) := by
  unfold ownIno Structure.ownIno
  by_cases hlong : Inode.inoOffset + 8 ≤ data.length
  · have hversion : Inode.versionOffset + 1 ≤ data.length :=
      Nat.le_trans (by decide : Inode.versionOffset + 1 ≤ Inode.inoOffset + 8) hlong
    rw [if_pos hlong, number_of_le hversion, pure_bind, ← Bytes.byteAt_eq_beAt]
    by_cases hthree : 3 ≤ data.byteAt Inode.versionOffset
    · rw [if_pos hthree, if_pos ⟨hlong, hthree⟩, number_of_le hlong]
    · rw [if_neg hthree, if_neg fun h => hthree h.2]
  · rw [if_neg hlong, if_neg fun h => hlong h.1]

/-- Decoding bytes as any structure stays inside. -/
theorem decode_eq (kind : Structure) (sb : Option Superblock) :
    decode kind data sb = plain (kind.decode data sb) := by
  cases kind with
  | superblock =>
    rw [decode, superblock_eq]
    refine plain_bind_congr fun decoded _ => ?_
    rw [table_eq, pure_bind, Superblock.render]
    split
    · rw [table_eq, pure_bind]
      rfl
    · rfl
  | agfl => exact freeListText_eq _
  | inode =>
    rw [decode, ownIno_eq, pure_bind, inode_eq]
    exact plain_bind_congr fun _ _ => rfl
  | agf | agi | quota | logRecord => exact table_eq _ _
  | _ => exact treeText_eq _

/-- Showing bytes as any structure stays inside, and has a text. -/
theorem render_eq (kind : Structure) (sb : Option Superblock) :
    render kind data sb = pure (kind.render data sb) := by
  rw [render, decode_eq, attempt_plain, pure_bind, Structure.render]
  cases kind.decode data sb <;> rfl

end Xfs.Guarded

end DiskScope
