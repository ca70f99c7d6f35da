/-
  DiskScope/Proofs/Partition/BootSectorCodec.lean --- a boot sector says what was written in it.

  WHAT THIS FILE IS FOR.  A boot sector is code, a signature of the disk and four slots of
  sixteen bytes, closed by two bytes that never change.  A slot packs two addresses
  into three bytes each, where the cylinder lends its high bits to the byte of the sector
  number.  Here all of it is written again (`Parts.encode`), and reading is shown to give it
  back, whatever the code is.

  WHAT IS LOST.  Of the status byte only one value counts, all others read alike.  A `Slot`
  is an entry with the status byte that it is written with; without that byte, the bytes
  of a slot follow from its entry.

  MAIN STATEMENTS.

      Chs.codec, Slot.codec    the two laws of an address and of a slot
      exists_parts             every sector that carries the signature is one that was written
      sectors_exact            what is read, when reading fails, and what equal tables tell
-/
import DiskScope.Partition.Table
import DiskScope.Proofs.Bytes.Records
import DiskScope.Proofs.Traced.Outcome
import Mathlib.Algebra.GroupWithZero.Nat

set_option autoImplicit false

namespace DiskScope

/-! ## Numbers, least significant byte first -/

namespace Bytes

variable {data : Bytes}

theorem ofNatLE_leAt {off width : Nat} (h : off + width ≤ data.length) :
    ofNatLE width (data.leAt off width) = data.slice off width := by
  have hdigits := ofNatLE_toNatLE (data.slice off width)
  rwa [length_slice_of_le h] at hdigits

theorem leAt_of_leading {width n : Nat} (hfits : n < 1 <<< (8 * width))
    (hleading : ofNatLE width n <+: data) : data.leAt 0 width = n := by
  obtain ⟨rest, rfl⟩ := hleading
  rw [leAt, slice, List.drop_zero, List.take_left' (length_ofNatLE width n), toNatLE_ofNatLE hfits]

theorem byteAt_eq_leAt (data : Bytes) (off : Nat) : data.byteAt off = data.leAt off 1 := by
  rw [byteAt_eq_beAt]
  unfold beAt leAt toNatBE slice
  cases data.drop off <;> rfl

end Bytes

namespace RecordCodec

/-- A number of `width` bytes, the least significant first. -/
def littleNumber (width : Nat) : RecordCodec Nat width where
  encode := Bytes.ofNatLE width
  decode data := data.leAt 0 width
  Fits n := n < 1 <<< (8 * width)
  length_encode := Bytes.length_ofNatLE width
  decode_encode := Bytes.leAt_of_leading
  fits_decode _ := Bytes.leAt_lt _ _ _
  encode_decode h := Bytes.ofNatLE_leAt (Nat.le_trans (Nat.le_of_eq (Nat.zero_add width)) h)

/-- A single byte as it is. -/
def byte : RecordCodec UInt8 1 where
  encode value := [value]
  decode data := data.headD 0
  Fits _ := True
  length_encode _ := rfl
  decode_encode := by
    rintro value data - ⟨rest, rfl⟩
    rfl
  fits_decode _ := trivial
  encode_decode := by
    intro data h
    obtain ⟨value, rest, rfl⟩ := List.exists_cons_of_length_pos h
    rfl

end RecordCodec

namespace Partition

open Bytes

/-! ## Addresses -/

namespace Chs

/-- Every number has room in its bits. -/
structure Fits (chs : Chs) : Prop where
  head_lt : chs.head < 2 ^ 8
  sector_lt : chs.sector < 2 ^ 6
  cylinder_lt : chs.cylinder < 2 ^ 10

instance (chs : Chs) : Decidable chs.Fits :=
  decidable_of_iff (chs.head < 2 ^ 8 ∧ chs.sector < 2 ^ 6 ∧ chs.cylinder < 2 ^ 10)
    ⟨fun h => ⟨h.1, h.2.1, h.2.2⟩, fun h => ⟨h.1, h.2, h.3⟩⟩

variable {chs : Chs} {data : Bytes}

theorem ofBytes_of_leading (h : chs.Fits) (hleading : chs.encode <+: data) :
    ofBytes data 0 = chs := by
  obtain ⟨rest, rfl⟩ := hleading
  obtain ⟨head, sector, cylinder⟩ := chs
  obtain ⟨hhead, hsector, hcylinder⟩ := h
  dsimp only at hhead hsector hcylinder
  have hroom : cylinder / 256 * 64 + sector < 256 := by omega
  have hsecond : (UInt8.ofNat (cylinder / 256 * 64 + sector)).toNat =
      cylinder / 256 * 64 + sector := UInt8.toNat_ofNat_of_lt' hroom
  have hthird : (UInt8.ofNat (cylinder % 256)).toNat = cylinder % 256 :=
    UInt8.toNat_ofNat_of_lt' (Nat.mod_lt _ (by decide))
  refine Chs.mk.injEq .. |>.mpr ⟨UInt8.toNat_ofNat_of_lt' hhead, ?_, ?_⟩
  · show (UInt8.ofNat (cylinder / 256 * 64 + sector)).toNat % 64 = sector
    omega
  · show (UInt8.ofNat (cylinder / 256 * 64 + sector)).toNat / 64 * 256
      + (UInt8.ofNat (cylinder % 256)).toNat = cylinder
    omega

/-- Three bytes make an address that has room in them, and are what it is written as. -/
theorem fits_ofBytes (first second third : UInt8) (rest : Bytes) :
    (ofBytes (first :: second :: third :: rest) 0).Fits ∧
      (ofBytes (first :: second :: third :: rest) 0).encode = [first, second, third] := by
  have hfirst := first.toNat_lt
  have hsecond := second.toNat_lt
  have hthird := third.toNat_lt
  have hhigh : (second.toNat / 64 * 256 + third.toNat) / 256 * 64 + second.toNat % 64 =
      second.toNat := by omega
  have hlow : (second.toNat / 64 * 256 + third.toNat) % 256 = third.toNat := by omega
  constructor
  · refine ⟨hfirst, Nat.mod_lt _ (by decide), ?_⟩
    show second.toNat / 64 * 256 + third.toNat < 2 ^ 10
    omega
  · show [UInt8.ofNat first.toNat,
      UInt8.ofNat ((second.toNat / 64 * 256 + third.toNat) / 256 * 64 + second.toNat % 64),
      UInt8.ofNat ((second.toNat / 64 * 256 + third.toNat) % 256)] = [first, second, third]
    rw [hhigh, hlow]
    simp

theorem ofBytes_drop (data : Bytes) (off : Nat) : ofBytes (data.drop off) 0 = ofBytes data off := by
  simp only [ofBytes, byteAt, List.getElem?_drop, Nat.add_zero, Nat.zero_add]

theorem exists_three_bytes (h : 3 ≤ data.length) :
    ∃ first second third rest, data = first :: second :: third :: rest :=
  match data, h with
  | first :: second :: third :: rest, _ => ⟨first, second, third, rest, rfl⟩

/-- Addresses that have room are the strings of three bytes. -/
def codec : RecordCodec Chs 3 where
  encode := encode
  decode data := ofBytes data 0
  Fits := Fits
  length_encode _ := rfl
  decode_encode := ofBytes_of_leading
  fits_decode := by
    intro data h
    obtain ⟨first, second, third, rest, rfl⟩ := exists_three_bytes h
    exact (fits_ofBytes first second third rest).1
  encode_decode := by
    intro data h
    obtain ⟨first, second, third, rest, rfl⟩ := exists_three_bytes h
    exact (fits_ofBytes first second third rest).2

end Chs

/-! ## Slots -/

namespace Entry

/-- Every number has room in its bits. -/
structure Fits (entry : Entry) : Prop where
  typeByte_lt : entry.typeByte < 2 ^ 8
  start_lt : entry.start < 2 ^ 32
  sectors_lt : entry.sectors < 2 ^ 32
  chsStart_fits : entry.chsStart.Fits
  chsEnd_fits : entry.chsEnd.Fits

instance (entry : Entry) : Decidable entry.Fits :=
  decidable_of_iff
    (entry.typeByte < 2 ^ 8 ∧ entry.start < 2 ^ 32 ∧ entry.sectors < 2 ^ 32 ∧
      entry.chsStart.Fits ∧ entry.chsEnd.Fits)
    ⟨fun h => ⟨h.1, h.2.1, h.2.2.1, h.2.2.2.1, h.2.2.2.2⟩, fun h => ⟨h.1, h.2, h.3, h.4, h.5⟩⟩

/-- The fifteen bytes behind the status byte. -/
def payload (entry : Entry) : Bytes :=
  entry.chsStart.encode ++ [UInt8.ofNat entry.typeByte] ++ entry.chsEnd.encode
    ++ ofNatLE 4 entry.start ++ ofNatLE 4 entry.sectors

/-- Nothing but the status byte is not in the entry. -/
theorem encode_eq_cons (entry : Entry) (status : UInt8) :
    entry.encode status = status :: entry.payload := rfl

end Entry

/-- An entry and the status byte that it is written with, of which one value makes it bootable. -/
structure Slot where
  entry : Entry
  status : UInt8
  bootable_eq : entry.bootable = (status.toNat == 0x80)

namespace Slot

/-- The sixteen bytes of a slot. -/
def encode (slot : Slot) : Bytes := slot.entry.encode slot.status

/-- The status byte, an address, the type byte, another address and two numbers. -/
def codec : RecordCodec Slot 16 :=
  (((((RecordCodec.byte.append Chs.codec).append (.littleNumber 1)).append Chs.codec).append
    (.littleNumber 4)).append (.littleNumber 4)).rename
    (fun (((((status, chsStart), typeByte), chsEnd), start), sectors) =>
      ⟨⟨status.toNat == 0x80, typeByte, start, sectors, chsStart, chsEnd⟩, status, rfl⟩)
    (fun slot => (((((slot.status, slot.entry.chsStart), slot.entry.typeByte), slot.entry.chsEnd),
      slot.entry.start), slot.entry.sectors))
    (fun _ => rfl)
    (by
      rintro ⟨entry, status, hbootable⟩
      cases entry
      cases hbootable
      rfl)

theorem encode_codec : codec.encode = encode := rfl

theorem fits_codec {slot : Slot} (h : slot.entry.Fits) : codec.Fits slot := by
  obtain ⟨htype, hstart, hsectors, hfirst, hlast⟩ := h
  exact ⟨⟨⟨⟨⟨trivial, hfirst⟩, htype⟩, hlast⟩, hstart⟩, hsectors⟩

theorem fits_of_codec {slot : Slot} (h : codec.Fits slot) : slot.entry.Fits := by
  obtain ⟨⟨⟨⟨⟨_, hfirst⟩, htype⟩, hlast⟩, hstart⟩, hsectors⟩ := h
  exact ⟨htype, hstart, hsectors, hfirst, hlast⟩

theorem entry_decode (data : Bytes) : (codec.decode data).entry = Entry.ofBytes data := by
  have hstatus : data.byteAt 0 = (data.headD 0).toNat := by cases data <;> rfl
  have htype : data.byteAt 4 = leAt (data.drop 4) 0 1 := byteAt_eq_leAt data 4
  rw [Entry.ofBytes, hstatus, htype, ← Chs.ofBytes_drop data 1, ← Chs.ofBytes_drop data 5]
  rfl

/-- The bytes of a slot are those of the entry that is read there, but for the first. -/
theorem slice_eq_payload {data : Bytes} {off : Nat} (h : off + 16 ≤ data.length) :
    data.slice (off + 1) 15 = (Entry.ofBytes (data.slice off 16)).payload := by
  have hlen : (data.slice off 16).length = 16 := length_slice_of_le h
  have hwhole : data.slice off 16 =
      (codec.decode (data.slice off 16)).status :: (Entry.ofBytes (data.slice off 16)).payload :=
    calc data.slice off 16
        = codec.encode (codec.decode (data.slice off 16)) := by
          rw [codec.encode_decode (Nat.le_of_eq hlen.symm),
            List.take_of_length_le (Nat.le_of_eq hlen)]
      _ = _ := by rw [encode_codec, encode, Entry.encode_eq_cons, entry_decode]
  have htail : data.slice (off + 1) 15 = (data.slice off 16).drop 1 := by
    rw [slice_add data off 1 15, List.drop_left' (length_slice_of_le (by omega))]
  exact htail.trans (congrArg (List.drop 1) hwhole)

end Slot

/-! ## Sectors -/

namespace Table

variable {data : Bytes} {table : Table} {fault : Fault}

/-- The table that stands in a sector. -/
def contents (data : Bytes) : Table :=
  let boot : BootSector :=
    ⟨data.leAt 440 4, (Slot.codec.decodeAll 4 (data.drop 446)).map Slot.entry⟩
  { boot, logical := [], protective := boot.isProtective }

theorem map_entry_decodeAll (data : Bytes) :
    (Slot.codec.decodeAll 4 data).map Slot.entry = (cut 16 4 data).map Entry.ofBytes := by
  rw [RecordCodec.decodeAll, List.map_map]
  exact List.map_congr_left fun piece _ => Slot.entry_decode piece

theorem ofSector_signed (h : data.leAt 510 2 = 0xAA55) : ofSector data = .ok (contents data) := by
  have hentries : entriesOf data 0 = .ok ((cut 16 4 (data.drop 446)).map Entry.ofBytes) :=
    if_pos h
  rw [ofSector, BootSector.ofBytes, hentries, contents, map_entry_decodeAll]
  rfl

theorem ofSector_unsigned (h : ¬ data.leAt 510 2 = 0xAA55) :
    ofSector data = .error (.badSignature 0 (data.leAt 510 2)) := by
  have hentries : entriesOf data 0 = .error (.badSignature 0 (data.leAt 510 2)) := if_neg h
  rw [ofSector, BootSector.ofBytes, hentries]
  rfl

theorem signed_iff (hlen : data.length = 512) :
    data.leAt 510 2 = 0xAA55 ↔ data.slice 510 2 = [0x55, 0xAA] := by
  constructor
  · intro h
    rw [← ofNatLE_leAt (by omega), h]
    rfl
  · intro h
    rw [leAt, h]
    rfl

/-- A sector is refused exactly if it does not carry the signature, with what it carries. -/
theorem ofSector_eq_error_iff (hlen : data.length = 512) :
    ofSector data = .error fault ↔
      data.slice 510 2 ≠ [0x55, 0xAA] ∧ fault = .badSignature 0 (data.leAt 510 2) := by
  rw [ne_eq, ← signed_iff hlen]
  by_cases hsigned : data.leAt 510 2 = 0xAA55
  · rw [ofSector_signed hsigned]
    simp [hsigned]
  · rw [ofSector_unsigned hsigned]
    simp [hsigned, eq_comm]

theorem eq_contents_of_ok (h : ofSector data = .ok table) : table = contents data := by
  by_cases hsigned : data.leAt 510 2 = 0xAA55
  · rw [ofSector_signed hsigned] at h
    exact (Except.ok.inj h).symm
  · rw [ofSector_unsigned hsigned] at h
    cases h

theorem getElem?_entries {slot : Nat} (h : ofSector data = .ok table) (hslot : slot < 4) :
    table.boot.entries[slot]? = some (Entry.ofBytes (data.slice (446 + 16 * slot) 16)) := by
  rw [eq_contents_of_ok h]
  show ((Slot.codec.decodeAll 4 (data.drop 446)).map Slot.entry)[slot]? = _
  rw [map_entry_decodeAll, List.getElem?_map, getElem?_cut _ hslot, slice, List.drop_drop,
    Nat.mul_comm slot 16]
  rfl

/-- Sectors with the same table have the same bytes in each slot, but for the status byte. -/
theorem payload_eq_of_ok {other : Bytes} (hlen : data.length = 512) (hlen' : other.length = 512)
    (h : ofSector data = .ok table) (h' : ofSector other = .ok table) {slot : Nat}
    (hslot : slot < 4) :
    data.slice (446 + 16 * slot + 1) 15 = other.slice (446 + 16 * slot + 1) 15 := by
  have hentry := (getElem?_entries h hslot).symm.trans (getElem?_entries h' hslot)
  rw [Slot.slice_eq_payload (by omega), Slot.slice_eq_payload (by omega), Option.some.inj hentry]

/-- What a sector is written from. -/
structure Parts where
  /-- The code that starts the machine. -/
  code : Bytes
  diskSignature : Nat
  /-- Two bytes that nothing reads. -/
  gap : Bytes
  slots : List Slot
  length_code : code.length = 440
  diskSignature_lt : diskSignature < 2 ^ 32
  length_gap : gap.length = 2
  length_slots : slots.length = 4
  slots_fit : ∀ slot ∈ slots, slot.entry.Fits

namespace Parts

/-- The bytes of a sector. -/
def encode (parts : Parts) : Bytes :=
  parts.code ++ ofNatLE 4 parts.diskSignature ++ parts.gap ++ parts.slots.flatMap Slot.encode
    ++ [0x55, 0xAA]

variable (parts : Parts)

theorem length_table : (parts.slots.flatMap Slot.encode).length = 64 := by
  have hlen := Slot.codec.length_encodeAll parts.slots
  rwa [parts.length_slots] at hlen

theorem length_encode : parts.encode.length = 512 := by
  simp only [encode, List.length_append, parts.length_code, length_ofNatLE, parts.length_gap,
    parts.length_table, List.length_cons, List.length_nil]

theorem drop_code : parts.encode.drop 440 = ofNatLE 4 parts.diskSignature ++
    (parts.gap ++ (parts.slots.flatMap Slot.encode ++ [0x55, 0xAA])) := by
  simp only [encode, List.append_assoc]
  exact List.drop_left' parts.length_code

theorem drop_gap : parts.encode.drop 446 = parts.slots.flatMap Slot.encode ++ [0x55, 0xAA] := by
  have hfront : (ofNatLE 4 parts.diskSignature ++ parts.gap).length = 6 := by
    rw [List.length_append, length_ofNatLE, parts.length_gap]
  have hstart : parts.encode.drop 446 = (parts.encode.drop 440).drop 6 := by rw [List.drop_drop]
  rw [hstart, drop_code, ← List.append_assoc, List.drop_left' hfront]

theorem drop_table : parts.encode.drop 510 = [0x55, 0xAA] := by
  have hstart : parts.encode.drop 510 = (parts.encode.drop 446).drop 64 := by rw [List.drop_drop]
  rw [hstart, drop_gap, List.drop_left' parts.length_table]

/-- The table in a sector that was written. -/
theorem ofSector_encode : ofSector parts.encode = .ok (contents parts.encode) := by
  refine ofSector_signed ?_
  rw [leAt, slice, drop_table]
  rfl

theorem diskSignature_contents :
    (contents parts.encode).boot.diskSignature = parts.diskSignature := by
  show leAt (parts.encode.drop 440) 0 4 = parts.diskSignature
  exact leAt_of_leading parts.diskSignature_lt (parts.drop_code ▸ List.prefix_append _ _)

theorem entries_contents :
    (contents parts.encode).boot.entries = parts.slots.map Slot.entry := by
  have hfits : ∀ slot ∈ parts.slots, Slot.codec.Fits slot :=
    fun slot hmem => Slot.fits_codec (parts.slots_fit slot hmem)
  have hback := Slot.codec.decodeAll_encodeAll hfits [0x55, 0xAA]
  rw [parts.length_slots] at hback
  show (Slot.codec.decodeAll 4 (parts.encode.drop 446)).map Slot.entry = _
  rw [drop_gap]
  exact congrArg (List.map Slot.entry) hback

end Parts

/-- Every sector that carries the signature is one that was written. -/
theorem exists_parts (hlen : data.length = 512) (h : data.slice 510 2 = [0x55, 0xAA]) :
    ∃ parts : Parts, parts.encode = data := by
  have htable : 4 * 16 ≤ (data.drop 446).length := by rw [List.length_drop]; omega
  obtain ⟨hfits, hslots⟩ := Slot.codec.encodeAll_decodeAll htable
  have hslots : (Slot.codec.decodeAll 4 (data.drop 446)).flatMap Slot.encode = data.slice 446 64 :=
    hslots
  refine
    ⟨{ code := data.slice 0 440
       diskSignature := data.leAt 440 4
       gap := data.slice 444 2
       slots := Slot.codec.decodeAll 4 (data.drop 446)
       length_code := length_slice_of_le (by omega)
       diskSignature_lt := leAt_lt data 440 4
       length_gap := length_slice_of_le (by omega)
       length_slots := Slot.codec.length_decodeAll 4 _
       slots_fit := fun slot hmem => Slot.fits_of_codec (hfits slot hmem) }, ?_⟩
  calc data.slice 0 440 ++ ofNatLE 4 (data.leAt 440 4) ++ data.slice 444 2
        ++ (Slot.codec.decodeAll 4 (data.drop 446)).flatMap Slot.encode ++ [0x55, 0xAA]
      = data.slice 0 440 ++ data.slice 440 4 ++ data.slice 444 2 ++ data.slice 446 64
          ++ data.slice 510 2 := by rw [ofNatLE_leAt (by omega), h, hslots]
    _ = data.slice 0 512 := by
      rw [← slice_add data 0 440 4, ← slice_add data 0 444 2, ← slice_add data 0 446 64,
        ← slice_add data 0 510 2]
    _ = data := by rw [slice, List.drop_zero, List.take_of_length_le (by omega)]

/-- Reading a sector gives back the signature and the entries that were written, in the order of
their slots and without logical partitions, and every sector that carries the closing signature was
written so.  One that does not is refused with the number found there.  Sectors with the same table
have the same bytes in every slot, but for the status byte. -/
theorem sectors_exact :
    (∀ parts : Parts, ∃ table, ofSector parts.encode = .ok table ∧
      table.boot.diskSignature = parts.diskSignature ∧
        table.boot.entries = parts.slots.map Slot.entry ∧ table.logical = []) ∧
    (∀ data : Bytes, data.length = 512 → data.slice 510 2 = [0x55, 0xAA] →
      ∃ parts : Parts, parts.encode = data) ∧
    (∀ data : Bytes, data.length = 512 → ∀ fault, ofSector data = .error fault ↔
      data.slice 510 2 ≠ [0x55, 0xAA] ∧ fault = .badSignature 0 (data.leAt 510 2)) ∧
    ∀ (data other : Bytes) (table : Table), data.length = 512 → other.length = 512 →
      ofSector data = .ok table → ofSector other = .ok table →
        ∀ slot < 4, data.slice (446 + 16 * slot + 1) 15 = other.slice (446 + 16 * slot + 1) 15 := by
  refine ⟨fun parts => ?_, fun data => exists_parts, fun data hlen fault => ?_, ?_⟩
  · exact ⟨_, parts.ofSector_encode, parts.diskSignature_contents, parts.entries_contents, rfl⟩
  · exact ofSector_eq_error_iff hlen
  · intro data other table hlen hlen' h h' slot hslot
    exact payload_eq_of_ok hlen hlen' h h' hslot

/-- A sector with a bootable slot, an empty one, and one whose numbers are the greatest, which has
the given status byte. -/
def mixedSector (status : UInt8) (hstatus : false = (status.toNat == 0x80)) : Parts where
  code := List.replicate 440 0xFA
  diskSignature := 0xDEADBEEF
  gap := [0x5A, 0x5A]
  slots :=
    [ ⟨⟨true, 0x0C, 2048, 1048576, ⟨32, 33, 0⟩, ⟨254, 63, 100⟩⟩, 0x80, rfl⟩,
      ⟨⟨false, 0xFF, 0xFFFFFFFF, 0xFFFFFFFF, ⟨255, 63, 1023⟩, ⟨0, 1, 256⟩⟩, status, hstatus⟩,
      ⟨⟨false, 0x83, 1050624, 4096, ⟨0, 1, 767⟩, ⟨254, 63, 768⟩⟩, 0x00, rfl⟩,
      ⟨⟨false, 0, 0, 0, ⟨0, 0, 0⟩, ⟨0, 0, 0⟩⟩, 0x00, rfl⟩ ]
  length_code := List.length_replicate
  diskSignature_lt := by decide
  length_gap := rfl
  length_slots := rfl
  slots_fit := by
    simp only [List.forall_mem_cons]
    decide

/-- Two status bytes that are not that of a bootable slot make two sectors with one table; and a
sector whose last byte is another one is refused. -/
theorem mixedSector_exact :
    let plain := (mixedSector 0x00 rfl).encode
    let odd := (mixedSector 0x7F rfl).encode
    (∃ table, ofSector plain = .ok table ∧ ofSector odd = .ok table ∧
      table.boot.diskSignature = 0xDEADBEEF ∧
        table.boot.entries.map Entry.chsStart =
          [⟨32, 33, 0⟩, ⟨255, 63, 1023⟩, ⟨0, 1, 767⟩, ⟨0, 0, 0⟩] ∧
        table.logical = []) ∧
      plain ≠ odd ∧
      (∀ slot < 4, plain.slice (446 + 16 * slot + 1) 15 = odd.slice (446 + 16 * slot + 1) 15) ∧
      ofSector (plain.take 511 ++ [0x55]) = .error (.badSignature 0 0x5555) := by
  intro plain odd
  obtain ⟨hread, -, hrefused, hsame⟩ := sectors_exact
  obtain ⟨table, hplain, hsignature, hentries, hlogical⟩ := hread (mixedSector 0x00 rfl)
  have hone : contents plain = contents odd := by decide +kernel
  have hodd : ofSector odd = .ok table := by
    rw [eq_contents_of_ok hplain, hone]
    exact Parts.ofSector_encode _
  have hlen : plain.length = 512 := Parts.length_encode _
  have hlen' : odd.length = 512 := Parts.length_encode _
  have hcut : (plain.take 511 ++ [0x55]).length = 512 := by
    rw [List.length_append, List.length_take, hlen]
    rfl
  refine ⟨⟨table, hplain, hodd, hsignature, by rw [hentries]; rfl, hlogical⟩, ?_,
    hsame plain odd table hlen hlen' hplain hodd, ?_⟩
  · decide +kernel
  · exact (hrefused _ hcut _).2 (by decide +kernel)

end Table

end Partition

end DiskScope
