/-
  DiskScope/Partition/Table.lean --- a disk's partition table and its listing.

  WHAT THIS FILE IS FOR.  A table is a boot sector together with the logical
  partitions of its extended entry.  It is listed in rows: slots in use keep
  their slot number from 1 to 4, logical partitions follow from 5 on.

  A boot sector that only guards a disk with another partitioning scheme is
  listed as it stands, and its chain is not followed.
-/
import DiskScope.Partition.Chain
import DiskScope.Text.Size

set_option autoImplicit false

namespace DiskScope.Partition

open Text

/-- A partition table with its logical partitions. -/
structure Table where
  boot : BootSector
  /-- Chain partitions in chain order, counted from the start of the disk. -/
  logical : List Entry
  /-- Whether the boot sector only guards the disk. -/
  protective : Bool
  deriving DecidableEq, Repr, Inhabited

/-- A partition as it is listed. -/
structure Row where
  number : Nat
  entry : Entry
  /-- Whether the partition comes from the chain. -/
  isLogical : Bool
  deriving DecidableEq, Repr, Inhabited

namespace Table

/-- The table that the boot sector in `data` gives by itself, no chain being followed. -/
def ofSector (data : Bytes) : Except Fault Table := do
  let boot ← BootSector.ofBytes data
  pure { boot, logical := [], protective := boot.isProtective }

/-- The table of a disk. -/
def detect (image : Image) (mode : Mode) : Traced Table := do
  let data ← image.read 0 sectorSize
  let table ← ofSector data
  let logical ←
    if table.protective then do
      Traced.warn "protective MBR found: this disk uses GPT, only the MBR view is shown"
      pure []
    else
      match table.boot.extendedEntry? with
      | some extended => walkChain image extended.start mode
      | none => pure []
  Traced.info
    ("MBR " ++ hexWide 8 table.boot.diskSignature ++ ": "
      ++ decimal table.boot.activeEntries.length ++ " primary, " ++ decimal logical.length
      ++ " logical partitions")
  pure { table with logical }

/-- The slots in use, numbered by slot from 1. -/
def physicalRows (table : Table) : List Row :=
  (table.boot.entries.mapIdx fun slot entry => Row.mk (slot + 1) entry false).filter
    fun row => !row.entry.isEmpty

/-- The logical partitions, numbered from 5. -/
def logicalRows (table : Table) : List Row :=
  table.logical.mapIdx fun i entry => Row.mk (i + 5) entry true

/-- All rows of the listing. -/
def rows (table : Table) : List Row :=
  table.physicalRows ++ table.logicalRows

/-! ## The listing -/

/-- One line of the listing in cells, the first one `column` characters wide. -/
def cells (column : Nat) (device boot start last sectors size id type : String) : String :=
  joinWith " " [padRight column device, padRight 4 boot, padLeft 10 start, padLeft 10 last,
    padLeft 10 sectors, padLeft 9 size, padLeft 2 id, type]

/-- The listing line of a row of the disk `name`. -/
def rowLine (column : Nat) (name : String) (row : Row) : String :=
  cells column (name ++ decimal row.number) (if row.entry.bootable then "*" else "")
    (decimal row.entry.start) (decimal row.entry.lastSector) (decimal row.entry.sectors)
    (Size.format row.entry.byteSize) (hexDigits row.entry.typeByte) row.entry.typeName

/-- The width of the device column: every row's name in bytes, and the heading. -/
def deviceColumn (name : String) (rows : List Row) : Nat :=
  (rows.map fun row => name.utf8ByteSize + (decimal row.number).length).foldl max "Device".length

/-- The listing of the table of the disk `name`. -/
def listing (table : Table) (name : String) : String :=
  let column := deviceColumn name table.rows
  lines
    (["Disklabel type: dos", "Disk identifier: " ++ hexWide 8 table.boot.diskSignature]
      ++ (if table.protective then ["(protective MBR; the real table is GPT)"] else [])
      ++ ["", cells column "Device" "Boot" "Start" "End" "Sectors" "Size" "Id" "Type"]
      ++ table.rows.map (rowLine column name))

end Table

end DiskScope.Partition
