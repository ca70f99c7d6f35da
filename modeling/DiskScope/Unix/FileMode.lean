/-
  DiskScope/Unix/FileMode.lean --- file types, permission strings, device numbers.

  WHAT THIS FILE IS FOR.  An inode's mode word holds the file type in its four high
  bits and the permissions in the twelve low ones.  A device number packs a major
  number of 12 bits between the low 8 and the high 12 bits of a minor number.

  The mode word and the device number are read by division and remainder, so the
  laws about them are arithmetic.
-/
import DiskScope.Text.Layout

set_option autoImplicit false

namespace DiskScope.Unix

/-! ## File types -/

/-- What kind of file an inode is. -/
inductive FileType where
  | regular
  | directory
  | symlink
  | blockDevice
  | charDevice
  | fifo
  | socket
  | unknown
  deriving DecidableEq, Repr, Inhabited

namespace FileType

/-- The file type in the high bits of a mode word. -/
def ofMode (mode : Nat) : FileType :=
  match mode / 0x1000 % 16 with
  | 0x8 => regular
  | 0x4 => directory
  | 0xA => symlink
  | 0x6 => blockDevice
  | 0x2 => charDevice
  | 0x1 => fifo
  | 0xC => socket
  | _ => unknown

/-- The name of a file type. -/
def name : FileType → String
  | regular => "regular file"
  | directory => "directory"
  | symlink => "symlink"
  | blockDevice => "block device"
  | charDevice => "char device"
  | fifo => "fifo"
  | socket => "socket"
  | unknown => "unknown"

/-- The first character of a permission string. -/
def letter : FileType → Char
  | directory => 'd'
  | symlink => 'l'
  | blockDevice => 'b'
  | charDevice => 'c'
  | fifo => 'p'
  | socket => 's'
  | regular => '-'
  | unknown => '-'

end FileType

/-! ## Permission strings -/

/-- The three permissions of one class of users, with the special bit shown in the third. -/
structure Triplet where
  read : Bool
  write : Bool
  execute : Bool
  /-- Set-user-id, set-group-id or sticky. -/
  special : Bool
  deriving DecidableEq, Repr, Inhabited

namespace Triplet

/-- The triplet whose execute bit is bit `low` of `mode`, with special bit `special`. -/
def ofMode (mode low special : Nat) : Triplet :=
  { read := mode.testBit (low + 2)
    write := mode.testBit (low + 1)
    execute := mode.testBit low
    special := mode.testBit special }

/-- The three characters of a triplet whose special bit is shown as `both` or `alone`. -/
def chars (triplet : Triplet) (both alone : Char) : List Char :=
  [ if triplet.read then 'r' else '-',
    if triplet.write then 'w' else '-',
    match triplet.execute, triplet.special with
    | true, true => both
    | false, true => alone
    | true, false => 'x'
    | false, false => '-' ]

end Triplet

/-- The permission string of a mode word, such as `drwxr-xr-x`. -/
def modeString (mode : Nat) : String :=
  String.ofList
    ((FileType.ofMode mode).letter :: (Triplet.ofMode mode 6 11).chars 's' 'S'
      ++ (Triplet.ofMode mode 3 10).chars 's' 'S' ++ (Triplet.ofMode mode 0 9).chars 't' 'T')

/-! ## Device numbers -/

/-- A device number taken apart. -/
structure Device where
  major : Nat
  minor : Nat
  deriving DecidableEq, Repr, Inhabited

namespace Device

/-- The two parts of a 32-bit device number. -/
def ofNumber (number : Nat) : Device :=
  { major := number / 0x100 % 0x1000
    minor := number % 0x100 + number / 0x100000 % 0x1000 * 0x100 }

/-- The device number with these parts. -/
def number (device : Device) : Nat :=
  device.minor % 0x100 + device.major * 0x100 + device.minor / 0x100 * 0x100000

/-- Taking a device number apart loses nothing. -/
theorem number_ofNumber {n : Nat} (h : n < 0x100000000) : (ofNumber n).number = n := by
  simp only [number, ofNumber]; omega

end Device

end DiskScope.Unix
