/-
  DiskScope/Partition/Entry.lean --- one entry of a DOS partition table.

  WHAT THIS FILE IS FOR.  An entry is sixteen bytes: a status byte, a first and a last
  sector in cylinder-head-sector form around the type byte, and the start and the
  number of sectors as little-endian words.  The two high bits of a cylinder
  share a byte with the sector number.

  `Entry.encode` writes the same layout, so that what `Entry.ofBytes` reads can be
  stated against it.
-/
import DiskScope.Bytes

set_option autoImplicit false

namespace DiskScope.Partition

/-- The number of bytes in a sector. -/
def sectorSize : Nat := 512

/-- The greatest sector number that a 32-bit word holds. -/
def maxSector : Nat := 0xFFFFFFFF

/-! ## Cylinder, head, sector -/

/-- A sector address by geometry. -/
structure Chs where
  head : Nat
  /-- Six bits. -/
  sector : Nat
  /-- Ten bits. -/
  cylinder : Nat
  deriving DecidableEq, Repr, Inhabited

namespace Chs

/-- The address in the three bytes at `off`. -/
def ofBytes (data : Bytes) (off : Nat) : Chs :=
  { head := data.byteAt off
    sector := data.byteAt (off + 1) % 64
    cylinder := data.byteAt (off + 1) / 64 * 256 + data.byteAt (off + 2) }

/-- The three bytes of an address. -/
def encode (chs : Chs) : Bytes :=
  [ UInt8.ofNat chs.head,
    UInt8.ofNat (chs.cylinder / 256 * 64 + chs.sector),
    UInt8.ofNat (chs.cylinder % 256) ]

end Chs

/-! ## Entries -/

/-- An entry of a partition table. -/
structure Entry where
  bootable : Bool
  /-- The partition type byte. -/
  typeByte : Nat
  /-- The first sector, counted from whatever the table counts from. -/
  start : Nat
  /-- The number of sectors. -/
  sectors : Nat
  chsStart : Chs
  chsEnd : Chs
  deriving DecidableEq, Repr, Inhabited

namespace Entry

/-- The number of bytes of an entry. -/
def size : Nat := 16

/-- The status byte of a bootable entry. -/
def bootableStatus : Nat := 0x80

/-- The entry in the sixteen bytes of `data`. -/
def ofBytes (data : Bytes) : Entry :=
  { bootable := data.byteAt 0 == bootableStatus
    typeByte := data.byteAt 4
    start := data.leAt 8 4
    sectors := data.leAt 12 4
    chsStart := Chs.ofBytes data 1
    chsEnd := Chs.ofBytes data 5 }

/-- The sixteen bytes of an entry whose status byte is `status`. -/
def encode (entry : Entry) (status : UInt8) : Bytes :=
  [status] ++ entry.chsStart.encode ++ [UInt8.ofNat entry.typeByte] ++ entry.chsEnd.encode
    ++ Bytes.ofNatLE 4 entry.start ++ Bytes.ofNatLE 4 entry.sectors

/-- Whether the slot is unused. -/
def isEmpty (entry : Entry) : Bool :=
  entry.typeByte == 0 && entry.start == 0 && entry.sectors == 0

/-- Whether the entry is a container of logical partitions. -/
def isExtended (entry : Entry) : Bool :=
  entry.typeByte == 0x05 || entry.typeByte == 0x0F || entry.typeByte == 0x85

/-- Whether the entry is a partition that holds data. -/
def holdsData (entry : Entry) : Bool :=
  !entry.isEmpty && !entry.isExtended

/-- The last sector, zero for an entry of no sectors at sector zero. -/
def lastSector (entry : Entry) : Nat := entry.start + entry.sectors - 1

/-- The number of bytes of the partition. -/
def byteSize (entry : Entry) : Nat := entry.sectors * sectorSize

/-- The entry counted from sector `origin`, its start kept within a word. -/
def shift (entry : Entry) (origin : Nat) : Entry :=
  { entry with start := min (origin + entry.start) maxSector }

/-- The name of the partition type. -/
def typeName (entry : Entry) : String :=
  match entry.typeByte with
  | 0x00 => "Empty"
  | 0x01 => "FAT12"
  | 0x04 => "FAT16 (<32MB)"
  | 0x05 => "Extended"
  | 0x06 => "FAT16 (>32MB)"
  | 0x07 => "NTFS/HPFS/exFAT"
  | 0x0B => "FAT32 (CHS)"
  | 0x0C => "FAT32 (LBA)"
  | 0x0E => "FAT16 (LBA)"
  | 0x0F => "Extended (LBA)"
  | 0x11 => "Hidden FAT12"
  | 0x14 => "Hidden FAT16 (<32MB)"
  | 0x16 => "Hidden FAT16 (>32MB)"
  | 0x1B => "Hidden FAT32 (CHS)"
  | 0x1C => "Hidden FAT32 (LBA)"
  | 0x1E => "Hidden FAT16 (LBA)"
  | 0x27 => "Windows RE"
  | 0x42 => "Dynamic Disk"
  | 0x82 => "Linux swap"
  | 0x83 => "Linux"
  | 0x85 => "Linux Extended"
  | 0x8E => "Linux LVM"
  | 0xA5 => "FreeBSD"
  | 0xA6 => "OpenBSD"
  | 0xAF => "HFS/HFS+"
  | 0xEE => "GPT Protective"
  | 0xEF => "EFI System"
  | 0xFD => "Linux RAID"
  | _ => "Unknown"

end Entry

end DiskScope.Partition
