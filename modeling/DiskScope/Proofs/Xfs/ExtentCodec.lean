/-
  DiskScope/Proofs/Xfs/ExtentCodec.lean --- packing extents loses nothing, alone and in lists.

  WHAT THIS FILE IS FOR.  The four fields of an extent share 128 bits, and the start block is
  split between the two words.  Here the bits are counted from the end of the record, where
  no field is split (`bits`), and packing is shown to be exactly that.  So extents whose
  fields are in range and pairs of words are the same thing, and a field that is too long
  loses its high bits without touching its neighbours.

  LISTS.  A fork is read extent by extent until it, or the count, runs out.  That this is
  the same as reading each extent on its own is the list law of `RecordCodec`.

  MAIN STATEMENTS.

      toNatBE_toBytes    where each field stands in the record
      codec              the two laws of a record
      packing_exact      words, records and lists
-/
import DiskScope.Proofs.Bytes.Records
import DiskScope.Xfs.Extent
import Mathlib.Algebra.GroupWithZero.Nat

set_option autoImplicit false

namespace DiskScope.Xfs.Extent

open Bytes

/-! ## Words -/

/-- Every field has room in its bits. -/
structure InRange (extent : Extent) : Prop where
  fileOffset_lt : extent.fileOffset < 2 ^ 54
  startBlock_lt : extent.startBlock < 2 ^ 52
  blockCount_lt : extent.blockCount < 2 ^ 21

instance (extent : Extent) : Decidable extent.InRange :=
  decidable_of_iff
    (extent.fileOffset < 2 ^ 54 ∧ extent.startBlock < 2 ^ 52 ∧ extent.blockCount < 2 ^ 21)
    ⟨fun h => ⟨h.1, h.2.1, h.2.2⟩, fun h => ⟨h.1, h.2, h.3⟩⟩

/-- The extent with every field reduced to its bits. -/
def reduced (extent : Extent) : Extent where
  unwritten := extent.unwritten
  fileOffset := extent.fileOffset % 2 ^ 54
  startBlock := extent.startBlock % 2 ^ 52
  blockCount := extent.blockCount % 2 ^ 21

/-- The fields side by side, each reduced to its bits. -/
def bits (extent : Extent) : Nat :=
  extent.unwritten.toNat * 2 ^ 127 + extent.fileOffset % 2 ^ 54 * 2 ^ 73
    + extent.startBlock % 2 ^ 52 * 2 ^ 21 + extent.blockCount % 2 ^ 21

variable {extent : Extent} {first second : Nat} {data : Bytes}

theorem InRange.reduced_eq (h : extent.InRange) : extent.reduced = extent := by
  rw [reduced, Nat.mod_eq_of_lt h.fileOffset_lt, Nat.mod_eq_of_lt h.startBlock_lt,
    Nat.mod_eq_of_lt h.blockCount_lt]

theorem inRange_unpack (hsecond : second < 2 ^ 64) : (unpack first second).InRange where
  fileOffset_lt := Nat.mod_lt _ (by decide)
  startBlock_lt := by
    have hhigh : first % 0x200 < 0x200 := Nat.mod_lt _ (by decide)
    simp only [unpack]
    omega
  blockCount_lt := Nat.mod_lt _ (by decide)

theorem firstWord_lt (extent : Extent) : extent.firstWord < 2 ^ 64 := by
  have hflag := extent.unwritten.toNat_le
  unfold firstWord
  omega

theorem secondWord_lt (extent : Extent) : extent.secondWord < 2 ^ 64 := by
  unfold secondWord
  omega

/-- The two words in a row are the fields side by side. -/
theorem words_eq_bits (extent : Extent) :
    extent.firstWord * 2 ^ 64 + extent.secondWord = extent.bits := by
  unfold firstWord secondWord bits
  omega

/-! ## Records -/

@[simp] theorem length_toBytes (extent : Extent) : extent.toBytes.length = 16 := by
  simp [toBytes]

/-- The record, read as one number of 128 bits. -/
theorem toNatBE_toBytes (extent : Extent) : toNatBE extent.toBytes = extent.bits := by
  rw [toBytes, toNatBE_append, length_ofNatBE, toNatBE_ofNatBE extent.firstWord_lt,
    toNatBE_ofNatBE extent.secondWord_lt]
  exact extent.words_eq_bits

theorem ofRecord_of_leading (h : extent.toBytes <+: data) : ofRecord data = extent.reduced := by
  obtain ⟨hfirst, hsecond⟩ := holds_append.1 (holds_zero_iff.2 h)
  rw [length_ofNatBE] at hsecond
  rw [ofRecord, be64, be64, hfirst.beAt_eq extent.firstWord_lt,
    hsecond.beAt_eq extent.secondWord_lt]
  exact extent.unpack_pack

theorem toBytes_ofRecord (h : 16 ≤ data.length) : (ofRecord data).toBytes = data.take 16 := by
  have hwords : (ofRecord data).pack = (data.be64 0, data.be64 8) :=
    pack_unpack (data.beAt_lt 0 8) (data.beAt_lt 8 8)
  obtain ⟨hfirst, hsecond⟩ := Prod.mk.inj hwords
  rw [toBytes, hfirst, hsecond, ofNatBE_beAt (by omega), ofNatBE_beAt (by omega)]
  exact (data.slice_add 0 8 8).symm

/-- Extents in range are the records. -/
def codec : RecordCodec Extent 16 where
  encode := toBytes
  decode := ofRecord
  Fits := InRange
  length_encode := length_toBytes
  decode_encode hrange hprefix := (ofRecord_of_leading hprefix).trans hrange.reduced_eq
  fits_decode {data} _ := inRange_unpack (data.beAt_lt 8 8)
  encode_decode := toBytes_ofRecord

theorem ofBytes_of_le (h : 16 ≤ data.length) : ofBytes data = .ok (ofRecord data) := by
  have hrequire : data.require "extent record" size = .ok () := require_eq_ok_iff.2 h
  rw [ofBytes, hrequire]
  rfl

/-! ## Lists -/

theorem listOf_eq (fork : Bytes) (count : Nat) :
    listOf fork count = codec.decodeAll (min count (fork.length / 16)) fork := rfl

/-- As many records as are read are there. -/
theorem records_le (fork : Bytes) (count : Nat) :
    min count (fork.length / 16) * 16 ≤ fork.length :=
  Nat.le_trans (Nat.mul_le_mul_right 16 (Nat.min_le_right _ _)) (Nat.div_mul_le_self _ _)

/-- Each extent of a list is the one that is read at its place. -/
theorem ofBytes_getElem_listOf {fork : Bytes} {count i : Nat} (h : i < (listOf fork count).length) :
    ofBytes (fork.drop (16 * i)) = .ok (listOf fork count)[i] := by
  have hi : i < min count (fork.length / 16) := by rwa [listOf_eq, codec.length_decodeAll] at h
  have hread := codec.getElem?_decodeAll hi (records_le fork count)
  rw [← listOf_eq, List.getElem?_eq_getElem h] at hread
  rw [Option.some.inj hread, Nat.mul_comm]
  refine ofBytes_of_le ?_
  rw [List.length_drop]
  omega

/-- Extents in range are read back, whatever follows that is not another record. -/
theorem listOf_encodeAll {extents : List Extent} (hrange : ∀ extent ∈ extents, extent.InRange)
    {tail : Bytes} (htail : tail.length < 16) {count : Nat} (hcount : extents.length ≤ count) :
    listOf (extents.flatMap toBytes ++ tail) count = extents := by
  have hlength : (extents.flatMap toBytes).length = extents.length * 16 :=
    codec.length_encodeAll extents
  have hmin : min count ((extents.flatMap toBytes ++ tail).length / 16) = extents.length := by
    rw [List.length_append, hlength]
    omega
  rw [listOf_eq, hmin]
  exact codec.decodeAll_encodeAll hrange tail

/-! ## All of it -/

/-- Pairs of words are the extents in range; a record holds the fields of its extent side by side,
and of fields that are not in range the low bits; and a list is read record by record, so that
extents that were packed in a row are read back. -/
theorem packing_exact :
    (∀ first < 2 ^ 64, ∀ second < 2 ^ 64,
      (unpack first second).InRange ∧ (unpack first second).pack = (first, second)) ∧
    (∀ extent : Extent, extent.pack.1 < 2 ^ 64 ∧ extent.pack.2 < 2 ^ 64 ∧
      unpack extent.pack.1 extent.pack.2 = extent.reduced ∧ toNatBE extent.toBytes = extent.bits) ∧
    (∀ extent : Extent, extent.InRange → unpack extent.pack.1 extent.pack.2 = extent ∧
      ∀ rest, ofBytes (extent.toBytes ++ rest) = .ok extent) ∧
    (∀ fork count, (listOf fork count).length = min count (fork.length / 16) ∧
      ∀ i (h : i < (listOf fork count).length),
        ofBytes (fork.drop (16 * i)) = .ok (listOf fork count)[i]) ∧
    ∀ extents : List Extent, (∀ extent ∈ extents, extent.InRange) →
      ∀ tail : Bytes, tail.length < 16 → ∀ count, extents.length ≤ count →
        listOf (extents.flatMap toBytes ++ tail) count = extents := by
  refine ⟨?_, ?_, ?_, ?_, ?_⟩
  · exact fun first hfirst second hsecond => ⟨inRange_unpack hsecond, pack_unpack hfirst hsecond⟩
  · exact fun extent =>
      ⟨extent.firstWord_lt, extent.secondWord_lt, extent.unpack_pack, extent.toNatBE_toBytes⟩
  · intro extent hrange
    refine ⟨extent.unpack_pack.trans hrange.reduced_eq, fun rest => ?_⟩
    have hlong : 16 ≤ (extent.toBytes ++ rest).length := by
      rw [List.length_append, length_toBytes]
      omega
    rw [ofBytes_of_le hlong, ofRecord_of_leading (List.prefix_append _ _), hrange.reduced_eq]
  · exact fun fork count => ⟨codec.length_decodeAll _ _, fun i h => ofBytes_getElem_listOf h⟩
  · exact fun extents hrange tail htail count hcount => listOf_encodeAll hrange htail hcount

/-- A start block with bits in both words, and the greatest fields. -/
def bothWords : List Extent :=
  [⟨true, 77, 2 ^ 43 + 5, 3⟩, ⟨false, 2 ^ 54 - 1, 2 ^ 52 - 1, 2 ^ 21 - 1⟩]

/-- Every field is too long by a bit. -/
def tooLong : Extent := ⟨false, 2 ^ 54 + 1, 2 ^ 52, 2 ^ 21⟩

/-- Extents in range are read back from a fork with half a record behind them; bits that are too many
leave no trace in the other fields. -/
theorem bothWords_exact :
    (∀ extent ∈ bothWords, extent.InRange) ∧
      listOf (bothWords.flatMap toBytes ++ List.replicate 8 0xFF) 5 = bothWords ∧
      unpack (pack tooLong).1 (pack tooLong).2 = ⟨false, 1, 0, 0⟩ := by
  have hrange : ∀ extent ∈ bothWords, extent.InRange := by decide
  obtain ⟨-, hreduced, -, -, hlists⟩ := packing_exact
  exact ⟨hrange, hlists bothWords hrange _ (by decide) 5 (by decide),
    (hreduced tooLong).2.2.1⟩

end DiskScope.Xfs.Extent
