/-
  DiskScope/Proofs/Xfs/ChildPointers.lean --- where an inner block keeps its child pointers.

  WHAT THIS FILE IS FOR.  An inner block is a header, then room for as many keys as the block
  can have, then as many pointers.  The pointers therefore do not begin where the keys end
  that are there, but where the last key would end; and how many pointers there are is a
  count in the header, which may be anything.  Here it is shown that a count for which there
  is room leads to an array inside the block and behind every key, and any other count to a
  fault; and that nothing but the header and that array decides what is read.

  MAIN STATEMENTS.

      pointers_inside         the array lies behind the keys and inside the block
      Guarded.pointers_eq     reading it never goes outside
      childPointers_stored    pointers that were stored are read back
      childPointers_placed    all of it
-/
import DiskScope.Proofs.Bytes.Agreement
import DiskScope.Proofs.Bytes.Slots
import DiskScope.Proofs.Guarded
import DiskScope.Proofs.Xfs.LeafRecords

set_option autoImplicit false

namespace DiskScope

namespace Bytes

variable {data other bytes : Bytes} {off len width : Nat}

theorem slice_congr (h : ∀ i, off ≤ i → i < off + len → other[i]? = data[i]?) :
    other.slice off len = data.slice off len := by
  refine List.ext_getElem? fun i => ?_
  rw [slice, slice]
  rcases Nat.lt_or_ge i len with hlt | hge
  · rw [List.getElem?_take_of_lt hlt, List.getElem?_take_of_lt hlt, List.getElem?_drop,
      List.getElem?_drop, h (off + i) (by omega) (by omega)]
  · rw [List.getElem?_take_eq_none hge, List.getElem?_take_eq_none hge]

theorem beAt_congr (h : ∀ i, off ≤ i → i < off + width → other[i]? = data[i]?) :
    other.beAt off width = data.beAt off width := by
  rw [beAt, beAt, slice_congr h]

theorem slice_slice {start : Nat} (hinside : off + width ≤ len) :
    (data.slice start len).slice off width = data.slice (start + off) width := by
  rw [slice.eq_def data start len, slice_take hinside, slice_drop]

theorem beAt_slice {start : Nat} (hinside : off + width ≤ len) :
    (data.slice start len).beAt off width = data.beAt (start + off) width := by
  rw [beAt, beAt, slice_slice hinside]

end Bytes

namespace Xfs

open Bytes

namespace TreeBlock

variable {block : TreeBlock} {data other : Bytes} {keySize : Nat}

/-! ## Headers -/

theorem ofBytes_eq_ok_iff :
    ofBytes data = .ok block ↔ readHeader data = block ∧ block.headerSize ≤ data.length := by
  constructor
  · intro h
    obtain ⟨_, _, h⟩ := Except.bind_eq_ok.1 h
    obtain ⟨_, hlen, h⟩ := Except.bind_eq_ok.1 h
    obtain rfl := Except.ok.inj h
    exact ⟨rfl, require_eq_ok_iff.1 hlen⟩
  · rintro ⟨rfl, hlen⟩
    exact ofBytes_of_le hlen

/-- Only the first sixteen bytes are read as a header. -/
theorem readHeader_congr (h : ∀ i < 16, other[i]? = data[i]?) :
    readHeader other = readHeader data := by
  have hword : ∀ off width, off + width ≤ 16 → other.beAt off width = data.beAt off width :=
    fun off width hend => beAt_congr fun i _ hlt => h i (by omega)
  simp (disch := decide) only [readHeader, hword]

/-- A count that is written into a header is read there, and changes nothing else of it. -/
theorem readHeader_overwrite {count : Nat} (hlen : 16 ≤ data.length) (hcount : count < 2 ^ 16) :
    readHeader (data.overwrite 6 (ofNatBE 2 count)) =
      { readHeader data with recordCount := count } := by
  have hinside : 6 + (ofNatBE 2 count).length ≤ data.length := by rw [length_ofNatBE]; omega
  have hword : ∀ off width, off + width ≤ 6 ∨ 8 ≤ off →
      (data.overwrite 6 (ofNatBE 2 count)).beAt off width = data.beAt off width := by
    intro off width hapart
    refine beAt_congr fun i _ _ => getElem?_overwrite hinside ?_
    rw [length_ofNatBE]
    omega
  have hwritten : (data.overwrite 6 (ofNatBE 2 count)).be16 6 = count :=
    (holds_overwrite hinside).beAt_eq hcount
  simp (disch := decide) only [readHeader, hword, hwritten]

/-! ## The array -/

theorem pointers_inside (hheader : block.headerSize ≤ data.length) {count : Nat}
    (hcount : count ≤ block.capacity data.length keySize) :
    block.pointerOffset data.length keySize + count * 4 ≤ data.length := by
  have hroom : block.capacity data.length keySize * (keySize + 4) ≤
      data.length - block.headerSize := Nat.div_mul_le_self _ _
  calc block.pointerOffset data.length keySize + count * 4
      ≤ block.pointerOffset data.length keySize + block.capacity data.length keySize * 4 :=
        Nat.add_le_add_left (Nat.mul_le_mul_right 4 hcount) _
    _ = block.headerSize + block.capacity data.length keySize * (keySize + 4) := by
        rw [pointerOffset, Nat.mul_add, Nat.add_assoc]
    _ ≤ data.length := by omega

theorem key_le_pointerOffset {size i : Nat} (hi : i < block.capacity size keySize) :
    block.headerSize + i * keySize + keySize ≤ block.pointerOffset size keySize := by
  have hkeys : (i + 1) * keySize ≤ block.capacity size keySize * keySize :=
    Nat.mul_le_mul_right keySize hi
  rw [Nat.succ_mul] at hkeys
  rw [pointerOffset]
  omega

theorem childPointers_of_many (h : block.capacity data.length keySize < block.recordCount) :
    block.childPointers data keySize =
      .error (.truncated "btree node pointers"
        (block.pointerOffset data.length keySize + block.recordCount * 4) data.length) :=
  if_pos h

theorem childPointers_lt {pointers : List Nat}
    (h : block.childPointers data keySize = .ok pointers) : ∀ pointer ∈ pointers, pointer < 2 ^ 32 := by
  rcases Nat.lt_or_ge (block.capacity data.length keySize) block.recordCount with hmany | hfew
  · rw [childPointers_of_many hmany] at h
    cases h
  · rw [childPointers_of_le hfew] at h
    obtain rfl := Except.ok.inj h
    intro pointer hmem
    obtain ⟨i, -, rfl⟩ := List.mem_map.1 hmem
    exact beAt_lt data _ 4

/-- The array is a row of numbers of four bytes. -/
theorem childPointers_eq_decodeAll (h : block.recordCount ≤ block.capacity data.length keySize) :
    block.childPointers data keySize =
      .ok ((RecordCodec.number 4).decodeAll block.recordCount
        (data.drop (block.pointerOffset data.length keySize))) := by
  rw [childPointers_of_le h, RecordCodec.decodeAll, cut_eq_map, List.map_map]
  refine congrArg Except.ok (List.map_congr_left fun i _ => ?_)
  show _ = (slice (data.drop _) (i * 4) 4).beAt 0 4
  rw [slice_drop, beAt_slice (Nat.le_refl 4), Nat.add_zero]

theorem childPointers_of_holds {pointers : List Nat}
    (hcount : block.recordCount = pointers.length)
    (hroom : pointers.length ≤ block.capacity data.length keySize)
    (hfits : ∀ pointer ∈ pointers, pointer < 2 ^ 32)
    (hstand : data.Holds (block.pointerOffset data.length keySize)
      (pointers.flatMap (ofNatBE 4))) :
    block.childPointers data keySize = .ok pointers := by
  obtain ⟨trailing, htrailing⟩ : (RecordCodec.number 4).encodeAll pointers <+:
      data.drop (block.pointerOffset data.length keySize) :=
    List.prefix_iff_eq_take.2 hstand.2.symm
  rw [childPointers_eq_decodeAll (hcount ▸ hroom), hcount, ← htrailing,
    RecordCodec.decodeAll_encodeAll _ hfits]

/-- The block with a count and as many pointers stored in it. -/
def storePointers (block : TreeBlock) (data : Bytes) (keySize : Nat) (pointers : List Nat) :
    Bytes :=
  (data.overwrite 6 (ofNatBE 2 pointers.length)).overwrite
    (block.pointerOffset data.length keySize) (pointers.flatMap (ofNatBE 4))

section Store

variable {pointers : List Nat}

theorem stored_inside (hheader : block.headerSize ≤ data.length)
    (hroom : pointers.length ≤ block.capacity data.length keySize) :
    block.pointerOffset data.length keySize + (pointers.flatMap (ofNatBE 4)).length ≤
      (data.overwrite 6 (ofNatBE 2 pointers.length)).length := by
  have hplain : 16 ≤ block.headerSize := plainHeaderSize_le block
  have hlength : (pointers.flatMap (ofNatBE 4)).length = pointers.length * 4 :=
    (RecordCodec.number 4).length_encodeAll pointers
  rw [hlength, length_overwrite (by rw [length_ofNatBE]; omega)]
  exact pointers_inside hheader hroom

theorem length_storePointers (hheader : block.headerSize ≤ data.length)
    (hroom : pointers.length ≤ block.capacity data.length keySize) :
    (block.storePointers data keySize pointers).length = data.length := by
  have hplain : 16 ≤ block.headerSize := plainHeaderSize_le block
  rw [storePointers, length_overwrite (stored_inside hheader hroom),
    length_overwrite (by rw [length_ofNatBE]; omega)]

/-- Of the header, storing changes the count. -/
theorem readHeader_storePointers (hheader : block.headerSize ≤ data.length)
    (hroom : pointers.length ≤ block.capacity data.length keySize)
    (hcount : pointers.length < 2 ^ 16) :
    readHeader (block.storePointers data keySize pointers) =
      { readHeader data with recordCount := pointers.length } := by
  have hplain : 16 ≤ block.headerSize := plainHeaderSize_le block
  have hbehind : block.headerSize ≤ block.pointerOffset data.length keySize :=
    Nat.le_add_right _ _
  rw [← readHeader_overwrite (by omega) hcount]
  exact readHeader_congr fun i hi =>
    getElem?_overwrite (stored_inside hheader hroom) (Or.inl (by omega))

/-- Pointers for which there is room are read back from where they were stored. -/
theorem childPointers_stored (h : ofBytes data = .ok block)
    (hroom : pointers.length ≤ block.capacity data.length keySize)
    (hcount : pointers.length < 2 ^ 16) (hfits : ∀ pointer ∈ pointers, pointer < 2 ^ 32) :
    ofBytes (block.storePointers data keySize pointers) =
        .ok { block with recordCount := pointers.length } ∧
      { block with recordCount := pointers.length }.childPointers
        (block.storePointers data keySize pointers) keySize = .ok pointers := by
  obtain ⟨hread, hheader⟩ := ofBytes_eq_ok_iff.1 h
  have hlength := length_storePointers hheader hroom
  constructor
  · refine ofBytes_eq_ok_iff.2 ⟨?_, hlength ▸ hheader⟩
    rw [readHeader_storePointers hheader hroom hcount, hread]
  · refine childPointers_of_holds rfl (hlength ▸ hroom) hfits ?_
    rw [hlength]
    exact holds_overwrite (stored_inside hheader hroom)

end Store

/-! ## What is not read -/

/-- Nothing but the header, and the array if it is read at all, decides what is read. -/
theorem childPointers_congr (h : ofBytes data = .ok block) (hlength : other.length = data.length)
    (hheader : ∀ i < block.headerSize, other[i]? = data[i]?)
    (harray : block.recordCount ≤ block.capacity data.length keySize →
      ∀ i, block.pointerOffset data.length keySize ≤ i →
        i < block.pointerOffset data.length keySize + block.recordCount * 4 →
          other[i]? = data[i]?) :
    ofBytes other = .ok block ∧
      block.childPointers other keySize = block.childPointers data keySize := by
  obtain ⟨hread, hlong⟩ := ofBytes_eq_ok_iff.1 h
  have hplain : 16 ≤ block.headerSize := plainHeaderSize_le block
  have hsame : readHeader other = block :=
    (readHeader_congr fun i hi => hheader i (by omega)).trans hread
  refine ⟨ofBytes_eq_ok_iff.2 ⟨hsame, hlength ▸ hlong⟩, ?_⟩
  rcases Nat.lt_or_ge (block.capacity data.length keySize) block.recordCount with hmany | hfew
  · rw [childPointers_of_many hmany, childPointers_of_many (hlength ▸ hmany), hlength]
  · rw [childPointers_of_le hfew, childPointers_of_le (hlength ▸ hfew), hlength]
    refine congrArg Except.ok (List.map_congr_left fun i hi => beAt_congr fun j hle hlt => ?_)
    have hi := List.mem_range.1 hi
    exact harray hfew j (by omega) (by omega)

end TreeBlock

/-! ## Inside -/

namespace Guarded

open DiskScope.Guarded

variable {block : TreeBlock} {data : Bytes} {keySize : Nat}

/-- The child pointers: first the whole array, then each. -/
def pointers (block : TreeBlock) (data : Bytes) (keySize : Nat) : Guarded (List Nat) :=
  let start := block.pointerOffset data.length keySize
  if block.capacity data.length keySize < block.recordCount then
    plain (.error (.truncated "btree node pointers" (start + block.recordCount * 4) data.length))
  else do
    let array ← bytes data start (block.recordCount * 4)
    (List.range block.recordCount).mapM fun i => number array (i * 4) 4

/-- Reading the child pointers of a block that holds its header stays inside. -/
theorem pointers_eq (hheader : block.headerSize ≤ data.length) :
    pointers block data keySize = plain (block.childPointers data keySize) := by
  unfold pointers
  dsimp only
  split
  · rename_i hmany
    rw [TreeBlock.childPointers_of_many hmany]
  · rename_i hfew
    have hcount := Nat.not_lt.1 hfew
    have hinside := TreeBlock.pointers_inside hheader hcount
    rw [bytes_of_le hinside, pure_bind, TreeBlock.childPointers_of_le hcount]
    refine mapM_eq_plain fun i hi => ?_
    have hi := List.mem_range.1 hi
    rw [number_of_le (by rw [length_slice_of_le hinside]; omega), beAt_slice (by omega)]

end Guarded

/-! ## The pointers of a block -/

namespace TreeBlock

/-- The child pointers of a block are read where they belong, from bytes that the block has.  The
room of a block is how many keys and pointers it can have. -/
structure PointersPlaced (block : TreeBlock) (data : Bytes) (keySize room : Nat) : Prop where
  /-- There is no array exactly if the header counts more pointers than the block can have. -/
  refused_iff : block.childPointers data keySize =
      .error (.truncated "btree node pointers"
        (block.headerSize + room * keySize + block.recordCount * 4) data.length) ↔
    room < block.recordCount
  /-- Otherwise there is one pointer for each that is counted, behind the room for the keys. -/
  read : block.recordCount ≤ room → ∃ pointers, block.childPointers data keySize = .ok pointers ∧
    pointers.length = block.recordCount ∧
    ∀ i < block.recordCount,
      pointers[i]? = some (data.be32 (block.headerSize + room * keySize + i * 4))
  /-- The array ends with the block, or before. -/
  inside : block.recordCount ≤ room →
    block.headerSize + room * keySize + block.recordCount * 4 ≤ data.length
  /-- No key that the block can have reaches into the array. -/
  behind_keys : ∀ i < room,
    block.headerSize + i * keySize + keySize ≤ block.headerSize + room * keySize
  /-- Nothing is read outside of the block. -/
  guarded : Guarded.pointers block data keySize = Guarded.plain (block.childPointers data keySize)
  /-- Pointers for which there is room are read back from where they were stored. -/
  stored : ∀ pointers : List Nat, pointers.length ≤ room → pointers.length < 2 ^ 16 →
    (∀ pointer ∈ pointers, pointer < 2 ^ 32) →
      ofBytes (block.storePointers data keySize pointers) =
          .ok { block with recordCount := pointers.length } ∧
        { block with recordCount := pointers.length }.childPointers
          (block.storePointers data keySize pointers) keySize = .ok pointers
  /-- A block of the same size with the same header, and the same array if it is read, has the
  same pointers. -/
  decided : ∀ other : Bytes, other.length = data.length →
    (∀ i < block.headerSize, other[i]? = data[i]?) →
    (block.recordCount ≤ room → ∀ i, block.headerSize + room * keySize ≤ i →
      i < block.headerSize + room * keySize + block.recordCount * 4 → other[i]? = data[i]?) →
      ofBytes other = .ok block ∧
        block.childPointers other keySize = block.childPointers data keySize

/-- Every block that holds its header has its pointers where they belong, whatever it counts. -/
theorem childPointers_placed (data : Bytes) (block : TreeBlock) (keySize : Nat)
    (h : ofBytes data = .ok block) :
    PointersPlaced block data keySize ((data.length - block.headerSize) / (keySize + 4)) := by
  have hheader := (ofBytes_eq_ok_iff.1 h).2
  change PointersPlaced block data keySize (block.capacity data.length keySize)
  refine
    { refused_iff := ⟨fun hrefused => ?_, childPointers_of_many⟩
      read := fun hfew => ⟨_, childPointers_of_le hfew, ?_, fun i hi => ?_⟩
      inside := fun hfew => pointers_inside hheader hfew
      behind_keys := fun i hi => key_le_pointerOffset hi
      guarded := Guarded.pointers_eq hheader
      stored := fun pointers hroom hcount hfits => childPointers_stored h hroom hcount hfits
      decided := fun other hlength hsame harray => childPointers_congr h hlength hsame harray }
  · by_contra hfew
    rw [childPointers_of_le (Nat.not_lt.1 hfew)] at hrefused
    cases hrefused
  · rw [List.length_map, List.length_range]
  · rw [List.getElem?_map, List.getElem?_range hi, Option.map_some, pointerOffset]

/-- An inner block of 64 bytes.  It has room for four keys and pointers, and counts none. -/
def emptyInner : Bytes := codec.encode ⟨Magic.freeByBlock, 1, 0, 7, 9⟩ ++ List.replicate 48 0xEE

/-- Three pointers are stored behind the room for four keys of eight bytes. -/
theorem emptyInner_placed :
    ∃ block, ofBytes emptyInner = .ok block ∧
      PointersPlaced block emptyInner 8 ((emptyInner.length - block.headerSize) / (8 + 4)) ∧
      { block with recordCount := 3 }.childPointers (block.storePointers emptyInner 8 [5, 9, 2])
        8 = .ok [5, 9, 2] := by
  have h : ofBytes emptyInner = .ok ⟨Magic.freeByBlock, 1, 0, 7, 9⟩ := by decide
  have hplaced := childPointers_placed emptyInner ⟨Magic.freeByBlock, 1, 0, 7, 9⟩ 8 h
  exact ⟨_, h, hplaced, (hplaced.stored [5, 9, 2] (by decide) (by decide) (by decide)).2⟩

end TreeBlock

end Xfs

end DiskScope
