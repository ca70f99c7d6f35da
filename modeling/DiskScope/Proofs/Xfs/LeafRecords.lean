/-
  DiskScope/Proofs/Xfs/LeafRecords.lean --- the records of a leaf are those that were put there.

  WHAT THIS FILE IS FOR.  A leaf is a header of two possible lengths and then records of one
  of several layouts, as many as the header counts.  The magic decides on the length, and the
  count is not to be trusted.  Here each layout is a `RecordCodec`, and one proof shows for
  all of them what a reader of leaves has to do (`ReadsLeaves`): give back what was encoded,
  give as many records as are counted exactly if the block holds them, and lose nothing.

  TWO LAYOUTS.  Inode records can be read in two ways.  Where the sparse layout has a mask and
  two counts, the full layout has one count of four bytes.

  MAIN STATEMENTS.

      readsLeaves        every codec makes a reader of leaves
      inodes_overlay     both readings of a leaf of inodes, record by record
      leaves_read        all layouts, and what the magic decides
-/
import DiskScope.Proofs.Xfs.ExtentCodec
import DiskScope.Proofs.Xfs.FreeTree
import Mathlib.Data.List.Forall2

set_option autoImplicit false

namespace DiskScope.Xfs

open Bytes RecordCodec

/-! ## Layouts -/

/-- Two numbers of four bytes. -/
def FreeRecord.codec : RecordCodec FreeRecord 8 :=
  ((number 4).append (number 4)).rename (fun (start, count) => ⟨start, count⟩)
    (fun record => (record.start, record.count)) (fun _ => rfl) (fun _ => rfl)

/-- Three numbers of four bytes. -/
def RefcountRecord.codec : RecordCodec RefcountRecord 12 :=
  (((number 4).append (number 4)).append (number 4)).rename
    (fun ((start, count), references) => ⟨start, count, references⟩)
    (fun record => ((record.start, record.count), record.references)) (fun _ => rfl) (fun _ => rfl)

/-- Two numbers of four bytes and two of eight. -/
def OwnerRecord.codec : RecordCodec OwnerRecord 24 :=
  ((((number 4).append (number 4)).append (number 8)).append (number 8)).rename
    (fun (((start, count), owner), offset) => ⟨start, count, owner, offset⟩)
    (fun record => (((record.start, record.count), record.owner), record.offset))
    (fun _ => rfl) (fun _ => rfl)

/-- The leading part of a header, which is the same in both lengths. -/
def TreeBlock.codec : RecordCodec TreeBlock 16 :=
  (((((number 4).append (number 2)).append (number 2)).append (number 4)).append (number 4)).rename
    (fun ((((magic, level), count), left), right) => ⟨magic, level, count, left, right⟩)
    (fun block => ((((block.magic, block.level), block.recordCount), block.leftSibling),
      block.rightSibling))
    (fun _ => rfl) (fun _ => rfl)

namespace InodeRecord

/-- The start, the count of free inodes, and the mask of the free ones. -/
def fullRow : RecordCodec ((Nat × Nat) × Nat) 16 :=
  ((number 4).append (number 4)).append (number 8)

/-- The start, the mask of holes, the counts of inodes and of free ones, and the mask of these. -/
def sparseRow : RecordCodec ((((Nat × Nat) × Nat) × Nat) × Nat) 16 :=
  ((((number 4).append (number 2)).append (number 1)).append (number 1)).append (number 8)

/-- A record of the layout whose numbers have room. -/
def Fits (isSparse : Bool) : InodeRecord → Prop
  | full start freeCount free => isSparse = false ∧ fullRow.Fits ((start, freeCount), free)
  | sparse start holeMask count freeCount free =>
    isSparse = true ∧ sparseRow.Fits ((((start, holeMask), count), freeCount), free)

variable {data : Bytes}

theorem ofBytes_full (data : Bytes) :
    ofBytes false data =
      match fullRow.decode data with
      | ((start, freeCount), free) => full start freeCount free := rfl

theorem ofBytes_sparse (data : Bytes) :
    ofBytes true data =
      match sparseRow.decode data with
      | ((((start, holeMask), count), freeCount), free) =>
        sparse start holeMask count freeCount free := by
  rw [ofBytes, if_pos rfl, byteAt_eq_beAt, byteAt_eq_beAt]
  rfl

/-- The records of one layout. -/
def codec (isSparse : Bool) : RecordCodec InodeRecord 16 where
  encode := encode
  decode := ofBytes isSparse
  Fits := Fits isSparse
  length_encode record := by
    cases record with
    | full start freeCount free => exact fullRow.length_encode ((start, freeCount), free)
    | sparse start holeMask count freeCount free =>
      exact sparseRow.length_encode ((((start, holeMask), count), freeCount), free)
  decode_encode := by
    intro record data hfits hleading
    cases record with
    | full start freeCount free =>
      obtain ⟨rfl, hfits⟩ := hfits
      rw [ofBytes_full, fullRow.decode_encode hfits hleading]
    | sparse start holeMask count freeCount free =>
      obtain ⟨rfl, hfits⟩ := hfits
      rw [ofBytes_sparse, sparseRow.decode_encode hfits hleading]
  fits_decode h := by
    cases isSparse with
    | false => exact ⟨rfl, fullRow.fits_decode h⟩
    | true =>
      rw [ofBytes_sparse]
      exact ⟨rfl, sparseRow.fits_decode h⟩
  encode_decode h := by
    cases isSparse with
    | false => exact fullRow.encode_decode h
    | true =>
      rw [ofBytes_sparse]
      exact sparseRow.encode_decode h

/-- The same bytes in both layouts: what counts the free inodes in the one are the mask and both
counts of the other. -/
def Overlays : InodeRecord → InodeRecord → Prop
  | full start freeCount free, sparse start' holeMask count freeCount' free' =>
    start = start' ∧ free = free' ∧ freeCount = holeMask * 2 ^ 16 + count * 2 ^ 8 + freeCount'
  | _, _ => False

theorem overlays_ofBytes (h : 16 ≤ data.length) :
    (ofBytes false data).Overlays (ofBytes true data) := by
  refine ⟨rfl, rfl, ?_⟩
  have hcounts : data.beAt 6 (1 + 1) = data.byteAt 6 * 2 ^ 8 + data.byteAt 7 := by
    rw [beAt_add (by omega), byteAt_eq_beAt, byteAt_eq_beAt]
    rfl
  calc data.beAt 4 (2 + 2) = data.beAt 4 2 * 2 ^ 16 + data.beAt 6 2 := beAt_add (by omega)
    _ = data.beAt 4 2 * 2 ^ 16 + data.byteAt 6 * 2 ^ 8 + data.byteAt 7 := by
      rw [hcounts, Nat.add_assoc]

end InodeRecord

/-! ## Blocks -/

theorem Content.ofMagic?_eq_extents_iff {magic : Nat} :
    ofMagic? magic = some extents ↔
      magic = Magic.extentMapTree ∨ magic = Magic.extentMapTreeCrc := by
  constructor
  · intro h
    by_contra hother
    have hnone : magic ∉ [Magic.extentMapTree, Magic.extentMapTreeCrc] := by simpa using hother
    rw [ofMagic?, if_neg hnone] at h
    split_ifs at h <;> cases h
  · rintro (rfl | rfl) <;> rfl

namespace TreeBlock

theorem length_encode (block : TreeBlock) : block.encode.length = 16 :=
  codec.length_encode block

/-- A header is read where its leading part begins the block. -/
theorem readHeader_of_leading {header : TreeBlock} {data : Bytes} (hfits : codec.Fits header)
    (hleading : header.encode <+: data) : readHeader data = header :=
  codec.decode_encode hfits hleading

theorem headerSize_eq (block : TreeBlock) :
    block.headerSize = if block.magic ∈ crcMagics then 56 else 16 := by
  simp [headerSize, hasCrc, crcHeaderSize, plainHeaderSize]

theorem isVerified_eq_false_iff (block : TreeBlock) :
    block.isVerified = false ↔
      block.magic = Magic.extentMapTree ∨ block.magic = Magic.extentMapTreeCrc := by
  have hextents : block.isVerified = false ↔ Content.ofMagic? block.magic = some .extents := by
    simp [isVerified, content?]
  rw [hextents, Content.ofMagic?_eq_extents_iff]

variable {α : Type} {size : Nat} {block : TreeBlock} {data : Bytes}

/-- The records of a leaf in the layout of a codec. -/
def readRecords (codec : RecordCodec α size) (block : TreeBlock) (data : Bytes) :
    Except Fault (List α) :=
  (block.recordPieces data size).map (·.map codec.decode)

theorem readRecords_of_le (codec : RecordCodec α size)
    (h : block.headerSize + block.recordCount * size ≤ data.length) :
    readRecords codec block data =
      .ok (codec.decodeAll block.recordCount (data.drop block.headerSize)) := by
  rw [readRecords, recordPieces, require_eq_ok_iff.2 h]
  rfl

theorem readRecords_of_lt (codec : RecordCodec α size)
    (h : data.length < block.headerSize + block.recordCount * size) :
    readRecords codec block data =
      .error (.truncated "btree records" (block.headerSize + block.recordCount * size)
        data.length) := by
  rw [readRecords, recordPieces, require_of_lt h]
  rfl

/-- A leaf: the leading part of its header, the rest of it, records, and what follows them. -/
def leaf (encode : α → Bytes) (header : TreeBlock) (filling : Bytes) (records : List α)
    (trailing : Bytes) : Bytes :=
  header.encode ++ filling ++ (records.flatMap encode ++ trailing)

/-- The header of a leaf is read where it stands. -/
theorem ofBytes_leaf {header : TreeBlock} {filling : Bytes} (hheader : TreeBlock.codec.Fits header)
    (hfilling : 16 + filling.length = header.headerSize) (encode : α → Bytes) (records : List α)
    (trailing : Bytes) : ofBytes (leaf encode header filling records trailing) = .ok header := by
  have hleading : header.encode <+: leaf encode header filling records trailing :=
    ⟨filling ++ (records.flatMap encode ++ trailing), (List.append_assoc _ _ _).symm⟩
  have hread : readHeader (leaf encode header filling records trailing) = header :=
    readHeader_of_leading hheader hleading
  have hlong : header.headerSize ≤ (leaf encode header filling records trailing).length := by
    rw [leaf, List.length_append, List.length_append, length_encode, hfilling]
    exact Nat.le_add_right _ _
  rw [ofBytes_of_le (hread.symm ▸ hlong), hread]

/-- The records of a leaf are read where they stand. -/
theorem readRecords_leaf (codec : RecordCodec α size) {header : TreeBlock} {filling : Bytes}
    {records : List α} (hfilling : 16 + filling.length = header.headerSize)
    (hcount : header.recordCount = records.length)
    (hrecords : ∀ record ∈ records, codec.Fits record) (trailing : Bytes) :
    readRecords codec header (leaf codec.encode header filling records trailing) =
      .ok records := by
  have hfront : (header.encode ++ filling).length = header.headerSize := by
    rw [List.length_append, length_encode, hfilling]
  have hlong : header.headerSize + header.recordCount * size ≤
      (leaf codec.encode header filling records trailing).length := by
    rw [leaf, List.length_append, hfront, List.length_append, ← encodeAll,
      codec.length_encodeAll, hcount]
    omega
  rw [readRecords_of_le codec hlong, leaf, List.drop_left' hfront, hcount,
    ← encodeAll, codec.decodeAll_encodeAll hrecords]

/-- What a reader of leaves has to do, where records that have room are encoded in `size` bytes. -/
structure ReadsLeaves (size : Nat) (encode : α → Bytes) (Fits : α → Prop)
    (read : TreeBlock → Bytes → Except Fault (List α)) : Prop where
  /-- It gives back the records that a leaf was made of, whatever fills its header and follows. -/
  reads_back : ∀ header filling records trailing, TreeBlock.codec.Fits header →
    16 + filling.length = header.headerSize → header.recordCount = records.length →
    (∀ record ∈ records, Fits record) →
      ofBytes (leaf encode header filling records trailing) = .ok header ∧
        read header (leaf encode header filling records trailing) = .ok records
  /-- It gives as many records as are counted exactly if the block does not end before them. -/
  ok_iff : ∀ block data,
    (∃ records, read block data = .ok records ∧ records.length = block.recordCount) ↔
      block.headerSize + block.recordCount * size ≤ data.length
  /-- Otherwise it says how many bytes it needs. -/
  cut_off : ∀ block data, data.length < block.headerSize + block.recordCount * size →
    read block data =
      .error (.truncated "btree records" (block.headerSize + block.recordCount * size) data.length)
  /-- The records have room, and are those which the bytes behind the header encode. -/
  faithful : ∀ block data records, read block data = .ok records →
    (∀ record ∈ records, Fits record) ∧
      records.flatMap encode = data.slice block.headerSize (block.recordCount * size)

/-- Every codec makes a reader of leaves. -/
theorem readsLeaves (codec : RecordCodec α size) :
    ReadsLeaves size codec.encode codec.Fits (readRecords codec) where
  reads_back := by
    intro header filling records trailing hheader hfilling hcount hrecords
    exact ⟨ofBytes_leaf hheader hfilling codec.encode records trailing,
      readRecords_leaf codec hfilling hcount hrecords trailing⟩
  ok_iff := by
    intro block data
    constructor
    · rintro ⟨records, hread, -⟩
      by_contra hlt
      rw [readRecords_of_lt codec (Nat.lt_of_not_le hlt)] at hread
      cases hread
    · intro h
      exact ⟨_, readRecords_of_le codec h, codec.length_decodeAll _ _⟩
  cut_off _ _ h := readRecords_of_lt codec h
  faithful := by
    intro block data records hread
    rcases Nat.lt_or_ge data.length (block.headerSize + block.recordCount * size) with hlt | hle
    · rw [readRecords_of_lt codec hlt] at hread
      cases hread
    · rw [readRecords_of_le codec hle] at hread
      obtain rfl := Except.ok.inj hread
      refine codec.encodeAll_decodeAll ?_
      rw [List.length_drop]
      omega

/-- A leaf of inodes that holds all its records is read in both layouts, which agree. -/
theorem inodes_overlay (h : block.headerSize + block.recordCount * 16 ≤ data.length) :
    ∃ fulls sparses, block.inodeRecords data false = .ok fulls ∧
      block.inodeRecords data true = .ok sparses ∧
      List.Forall₂ InodeRecord.Overlays fulls sparses := by
  refine ⟨_, _, readRecords_of_le (InodeRecord.codec false) h,
    readRecords_of_le (InodeRecord.codec true) h, ?_⟩
  have hbehind : block.recordCount * 16 ≤ (data.drop block.headerSize).length := by
    rw [List.length_drop]
    omega
  rw [decodeAll, decodeAll, List.forall₂_map_left_iff,
    List.forall₂_map_right_iff, List.forall₂_same]
  intro piece hpiece
  exact InodeRecord.overlays_ofBytes (Nat.le_of_eq (length_of_mem_cut hbehind hpiece).symm)

/-! ## All layouts -/

/-- Leaves of all layouts are read as they were written, and exactly if they are whole.  Inodes can
be read in two layouts, which agree.  The magic decides on the length of the header, and the extent
maps are the trees for which the header is not the right one. -/
theorem leaves_read :
    ReadsLeaves 8 FreeRecord.encode FreeRecord.codec.Fits freeRecords ∧
    (∀ isSparse, ReadsLeaves 16 InodeRecord.encode (InodeRecord.Fits isSparse)
      (inodeRecords · · isSparse)) ∧
    ReadsLeaves 12 RefcountRecord.encode RefcountRecord.codec.Fits refcountRecords ∧
    ReadsLeaves 24 OwnerRecord.encode OwnerRecord.codec.Fits ownerRecords ∧
    ReadsLeaves 16 Extent.toBytes Extent.InRange extentRecords ∧
    (∀ block : TreeBlock, ∀ data, block.headerSize + block.recordCount * 16 ≤ data.length →
      ∃ fulls sparses, block.inodeRecords data false = .ok fulls ∧
        block.inodeRecords data true = .ok sparses ∧
        List.Forall₂ InodeRecord.Overlays fulls sparses) ∧
    ∀ block : TreeBlock, (block.headerSize = if block.magic ∈ crcMagics then 56 else 16) ∧
      (block.isVerified = false ↔
        block.magic = Magic.extentMapTree ∨ block.magic = Magic.extentMapTreeCrc) :=
  ⟨readsLeaves FreeRecord.codec, fun isSparse => readsLeaves (InodeRecord.codec isSparse),
    readsLeaves RefcountRecord.codec, readsLeaves OwnerRecord.codec, readsLeaves Extent.codec,
    fun _ _ h => inodes_overlay h, fun block => ⟨block.headerSize_eq, block.isVerified_eq_false_iff⟩⟩

/-- The header of a leaf with checksums, which counts two chunks of inodes. -/
def holeyHeader : TreeBlock := ⟨Magic.inodeTreeCrc, 0, 2, 0xFFFFFFFF, 0xFFFFFFFF⟩

/-- Half of the first chunk is a hole, and the second has no inode in use. -/
def holeyInodes : List InodeRecord :=
  [.sparse 128 0x00FF 32 5 0xFFFF0000, .sparse 192 0 64 64 0xFFFFFFFFFFFFFFFF]

/-- The leaf, with a header that is filled with anything and three bytes behind the chunks. -/
def holeyLeaf : Bytes :=
  leaf InodeRecord.encode holeyHeader (List.replicate 40 0xAA) holeyInodes [1, 2, 3]

/-- Both chunks are read from it, and none once their last byte is gone. -/
theorem holeyLeaf_read :
    codec.Fits holeyHeader ∧ (∀ record ∈ holeyInodes, record.Fits true) ∧
      ofBytes holeyLeaf = .ok holeyHeader ∧
      holeyHeader.inodeRecords holeyLeaf true = .ok holeyInodes ∧
      holeyHeader.inodeRecords (holeyLeaf.take 87) true =
        .error (.truncated "btree records" 88 87) := by
  have hheader : codec.Fits holeyHeader := by simp [codec, holeyHeader, Magic.inodeTreeCrc]
  have hinodes : ∀ record ∈ holeyInodes, record.Fits true := by
    simp [holeyInodes, InodeRecord.Fits, InodeRecord.sparseRow]
  obtain ⟨-, hleaves, -⟩ := leaves_read
  obtain ⟨hread, hrecords⟩ :=
    (hleaves true).reads_back holeyHeader (List.replicate 40 0xAA) holeyInodes [1, 2, 3] hheader
      rfl rfl hinodes
  exact ⟨hheader, hinodes, hread, hrecords,
    (hleaves true).cut_off holeyHeader (holeyLeaf.take 87) (by decide)⟩

end TreeBlock

end DiskScope.Xfs
