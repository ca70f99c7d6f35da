/-
  DiskScope/Partition/BootSector.lean --- the first sector of a partitioned disk.

  WHAT THIS FILE IS FOR.  A boot sector holds a disk signature at byte 440, four
  entries from byte 446, and the boot signature 55 AA in its last two bytes.
  Extended boot records have the same layout, so their entries are read by the
  same function.
-/
import DiskScope.Fault
import DiskScope.Partition.Entry

set_option autoImplicit false

namespace DiskScope.Partition

/-- The value of the bytes 55 AA as a little-endian word. -/
def bootSignature : Nat := 0xAA55

/-- Where the boot signature stands. -/
def signatureOffset : Nat := 510

/-- Where the four entries begin. -/
def entriesOffset : Nat := 446

/-- Where the disk signature stands. -/
def diskSignatureOffset : Nat := 440

/-- The four entries of a sector that stands at `sector` and carries the boot signature. -/
def entriesOf (data : Bytes) (sector : Nat) : Except Fault (List Entry) :=
  let signature := data.leAt signatureOffset 2
  if signature = bootSignature then
    .ok ((Bytes.cut Entry.size 4 (data.drop entriesOffset)).map Entry.ofBytes)
  else .error (.badSignature sector signature)

/-- A boot sector. -/
structure BootSector where
  diskSignature : Nat
  /-- The four slots in order. -/
  entries : List Entry
  deriving DecidableEq, Repr, Inhabited

namespace BootSector

/-- The boot sector in the 512 bytes of `data`. -/
def ofBytes (data : Bytes) : Except Fault BootSector := do
  let entries ← entriesOf data 0
  pure { diskSignature := data.leAt diskSignatureOffset 4, entries }

/-- The slots that are in use. -/
def activeEntries (boot : BootSector) : List Entry :=
  boot.entries.filter fun entry => !entry.isEmpty

/-- Whether the sector only guards a disk that is partitioned in another way. -/
def isProtective (boot : BootSector) : Bool :=
  match boot.activeEntries with
  | [entry] => entry.typeByte == 0xEE
  | _ => false

/-- The first container of logical partitions; any further ones are ignored. -/
def extendedEntry? (boot : BootSector) : Option Entry :=
  boot.entries.find? Entry.isExtended

end BootSector

end DiskScope.Partition
