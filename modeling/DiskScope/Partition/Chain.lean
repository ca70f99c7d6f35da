/-
  DiskScope/Partition/Chain.lean --- the chain of logical partitions.

  WHAT THIS FILE IS FOR.  An extended partition is a chain of sectors laid out like a
  boot sector.  Each holds at most one partition, whose start counts from the
  sector itself, and at most one link, whose start counts from the base of the
  whole extended partition.  The first entry of each kind wins; a sector without
  a link ends the chain.

  A chain may be damaged, so at most `maxLogical` sectors are read; a chain that goes
  on after them, above all one that runs in a circle, is refused in every mode.
  A sector without the boot signature is an anomaly: a lenient walk ends there
  with the partitions found so far.
-/
import DiskScope.Image
import DiskScope.Partition.BootSector

set_option autoImplicit false

namespace DiskScope.Partition

open Text

/-- The number of chain sectors that are read at most. -/
def maxLogical : Nat := 64

/-- The sector that a link leads to, kept within a word. -/
def linkTarget (base relative : Nat) : Nat := min (base + relative) maxSector

/-- The partition of a chain sector at `sector`, counted from the start of the disk. -/
def logicalOf? (sector : Nat) (entries : List Entry) : Option Entry :=
  (entries.find? Entry.holdsData).map (·.shift sector)

/-- The link of a chain sector. -/
def linkOf? (entries : List Entry) : Option Entry :=
  entries.find? Entry.isExtended

/-- Tells which partition a chain sector holds. -/
def noteLogical (sector : Nat) : Option Entry → Traced Unit
  | none => pure ()
  | some logical =>
    .debug ("EBR at sector " ++ decimal sector ++ ": logical " ++ logical.typeName
      ++ " at sector " ++ decimal logical.start)

/-- The logical partitions from the chain sector at `base + relative` on, in `fuel` sectors. -/
def followChain (image : Image) (base : Nat) (mode : Mode) :
    (fuel relative : Nat) → Traced (List Entry)
  | 0, _ => .fail (.chainTooLong maxLogical)
  | fuel + 1, relative => do
    let sector := linkTarget base relative
    let data ← image.read (sector * sectorSize) sectorSize
    match entriesOf data sector with
    | .error fault =>
      let _ ← mode.tolerateCheck (.error fault)
      pure []
    | .ok entries =>
      let logical := logicalOf? sector entries
      noteLogical sector logical
      match linkOf? entries with
      | none => pure logical.toList
      | some link =>
        let rest ← followChain image base mode fuel link.start
        pure (logical.toList ++ rest)

/-- The logical partitions of the extended partition that starts at sector `base`. -/
def walkChain (image : Image) (base : Nat) (mode : Mode) : Traced (List Entry) :=
  followChain image base mode maxLogical 0

end DiskScope.Partition
