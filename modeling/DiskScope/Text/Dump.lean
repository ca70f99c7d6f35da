/-
  DiskScope/Text/Dump.lean --- raw bytes as hexadecimal text.

  WHAT THIS FILE IS FOR.  Bytes that no decoder understands are shown as they are,
  sixteen to a line: the address, two groups of eight cells, and the printable
  characters.  A cell is two digits and a blank, or three blanks where the line
  has ended, so the character column always starts at the same place.

  Universally unique identifiers are shown in their 8-4-4-4-12 form.
-/
import DiskScope.Bytes
import DiskScope.Text.Layout

set_option autoImplicit false

namespace DiskScope.Text

/-! ## Identifiers -/

/-- The two hexadecimal digits of a byte. -/
def byteHex (b : UInt8) : String := hexPadded 2 b.toNat

/-- The hexadecimal digits of a byte string, two for each byte. -/
def bytesHex (data : Bytes) : String := String.join (data.map byteHex)

/-- Sixteen bytes in groups of 4, 2, 2, 2 and 6; any other number of bytes in one group. -/
def uuid (data : Bytes) : String :=
  if data.length = 16 then
    joinWith "-" [bytesHex (data.slice 0 4), bytesHex (data.slice 4 2), bytesHex (data.slice 6 2),
      bytesHex (data.slice 8 2), bytesHex (data.slice 10 6)]
  else bytesHex data

/-! ## Hex dumps -/

/-- The number of bytes on a full line. -/
def dumpWidth : Nat := 16

/-- A cell of a dump line: a byte and a blank, or three blanks. -/
def dumpCell : Option UInt8 → String
  | some b => byteHex b ++ " "
  | none => "   "

/-- The character column's view of a byte: itself when printable, else a dot. -/
def dumpChar (b : UInt8) : Char :=
  if 0x20 ≤ b.toNat ∧ b.toNat ≤ 0x7E then Char.ofNat b.toNat else '.'

/-- The eight cells from cell `first` on. -/
def dumpGroup (data : Bytes) (first : Nat) : String :=
  String.join ((List.range 8).map fun i => dumpCell data[first + i]?)

/-- One line of a dump, for at most sixteen bytes at `address`. -/
def dumpLine (address : Nat) (data : Bytes) : String :=
  hexPadded 8 address ++ "  " ++ dumpGroup data 0 ++ " " ++ dumpGroup data 8 ++ " |"
    ++ String.ofList (data.map dumpChar) ++ "|"

/-- The lines of a dump whose first byte has address `base`. -/
def dumpLines (data : Bytes) (base : Nat) : List String :=
  (data.pieces dumpWidth).mapIdx fun i piece => dumpLine (base + i * dumpWidth) piece

/-- A dump of `data`, whose first byte has address `base`. -/
def hexdump (data : Bytes) (base : Nat) : String :=
  lines (dumpLines data base)

end DiskScope.Text
