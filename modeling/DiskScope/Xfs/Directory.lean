/-
  DiskScope/Xfs/Directory.lean --- directories small enough to live in their inode.

  WHAT THIS FILE IS FOR.  An inline directory is packed without padding:

      header   entry count, wide count, inode number of the parent
      entry    length of the name, offset, name, file type (if the
               filesystem stores one), inode number

  A wide count other than zero makes every inode number eight bytes instead of
  four.  `InlineDirectory.encode` writes this form.

  Reading keeps a position in the whole fork, so a fork that ends too early is
  reported with the length that would have been needed.
-/
import DiskScope.Fault
import DiskScope.Text.Utf8

set_option autoImplicit false

namespace DiskScope.Xfs

open Text

/-- An entry of an inline directory. -/
structure DirectoryEntry where
  /-- The bytes of the name. -/
  rawName : Bytes
  /-- Where the entry would stand in a directory with blocks of its own. -/
  offset : Nat
  /-- The file type, where the filesystem stores it. -/
  fileType : Option Nat
  ino : Nat
  deriving DecidableEq, Repr, Inhabited

/-- The name of an entry as text. -/
def DirectoryEntry.name (entry : DirectoryEntry) : String := Utf8.decode entry.rawName

/-- A directory stored in its inode. -/
structure InlineDirectory where
  count : Nat
  /-- Whether inode numbers take eight bytes, as the number of those that need them. -/
  wideCount : Nat
  parent : Nat
  entries : List DirectoryEntry
  deriving DecidableEq, Repr, Inhabited

namespace InlineDirectory

/-- What a fork that ends too early is called. -/
def part : String := "short-form directory"

/-- The number of bytes of an inode number. -/
def inoSize (wideCount : Nat) : Nat := if wideCount = 0 then 4 else 8

/-! ## Decoding -/

/-- The inode number of `size` bytes at `pos`. -/
def readIno (fork : Bytes) (pos size : Nat) : Except Fault Nat := do
  fork.require part (pos + size)
  pure (fork.beAt pos size)

/-- The file type at `pos` if there is one, and the position after it. -/
def readFileType (fork : Bytes) (hasType : Bool) (pos : Nat) : Except Fault (Option Nat × Nat) := do
  if hasType then
    fork.require part (pos + 1)
    pure (some (fork.byteAt pos), pos + 1)
  else pure (none, pos)

/-- The entry at `pos` and the position after it. -/
def readEntry (fork : Bytes) (hasType : Bool) (inoSize pos : Nat) :
    Except Fault (DirectoryEntry × Nat) := do
  fork.require part (pos + 3)
  let nameSize := fork.byteAt pos
  let offset := fork.be16 (pos + 1)
  fork.require part (pos + 3 + nameSize)
  let rawName := fork.slice (pos + 3) nameSize
  let (fileType, next) ← readFileType fork hasType (pos + 3 + nameSize)
  let ino ← readIno fork next inoSize
  pure ({ rawName, offset, fileType, ino }, next + inoSize)

/-- The `count` entries from `pos` on. -/
def readEntries (fork : Bytes) (hasType : Bool) (inoSize : Nat) :
    (count pos : Nat) → Except Fault (List DirectoryEntry)
  | 0, _ => .ok []
  | count + 1, pos => do
    let (entry, next) ← readEntry fork hasType inoSize pos
    let rest ← readEntries fork hasType inoSize count next
    pure (entry :: rest)

/-- The directory in a data fork, on a filesystem that stores file types or not. -/
def ofBytes (fork : Bytes) (hasType : Bool) : Except Fault InlineDirectory := do
  fork.require part 2
  let count := fork.byteAt 0
  let wideCount := fork.byteAt 1
  let parent ← readIno fork 2 (inoSize wideCount)
  let entries ← readEntries fork hasType (inoSize wideCount) count (2 + inoSize wideCount)
  pure { count, wideCount, parent, entries }

/-! ## Encoding -/

/-- The bytes of an entry whose inode number takes `inoSize` bytes. -/
def encodeEntry (inoSize : Nat) (entry : DirectoryEntry) : Bytes :=
  UInt8.ofNat entry.rawName.length :: Bytes.ofNatBE 2 entry.offset ++ entry.rawName
    ++ entry.fileType.toList.map UInt8.ofNat ++ Bytes.ofNatBE inoSize entry.ino

/-- The bytes of a directory. -/
def encode (dir : InlineDirectory) : Bytes :=
  UInt8.ofNat dir.count :: UInt8.ofNat dir.wideCount
    :: Bytes.ofNatBE (inoSize dir.wideCount) dir.parent
    ++ dir.entries.flatMap (encodeEntry (inoSize dir.wideCount))

/-! ## Display -/

/-- The names of the file types that an entry can store. -/
def fileTypeNames : List String :=
  ["unknown", "file", "dir", "chrdev", "blkdev", "fifo", "sock", "symlink"]

/-- The name of an entry's file type: a dash where none is stored, `?` for an unknown one. -/
def fileTypeName : Option Nat → String
  | none => "-"
  | some code => fileTypeNames.getD code "?"

/-- The directory as text. -/
def render (dir : InlineDirectory) : String :=
  lines
    (("short-form directory: " ++ decimal dir.count ++ " entries, i8count "
        ++ decimal dir.wideCount ++ ", parent " ++ decimal dir.parent)
      :: dir.entries.map fun entry =>
        "  " ++ padLeft 12 (decimal entry.ino) ++ "  " ++ hexWide 4 entry.offset ++ "  "
          ++ padRight 8 (fileTypeName entry.fileType) ++ " " ++ entry.name)

end InlineDirectory

end DiskScope.Xfs
