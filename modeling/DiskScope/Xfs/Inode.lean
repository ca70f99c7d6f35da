/-
  DiskScope/Xfs/Inode.lean --- inodes: their core, their data fork, their address.

  WHAT THIS FILE IS FOR.  An inode is a core of fixed fields, 100 bytes long before
  version 3 and 176 from then on, followed by the data fork and then, if the core
  says where, the attribute fork.  The core's format and the file type together
  say what the data fork holds; a combination that means nothing keeps its bytes.

  The data fork is a window on the buffer: it ends where the attribute fork begins
  or where the buffer ends, and nothing past that window is ever looked at.

  An inode number is a place: dividing it by the number of inodes in a block
  gives a block number whose high bits are the group.
-/
import DiskScope.Image
import DiskScope.Text.Calendar
import DiskScope.Unix.FileMode
import DiskScope.Xfs.Directory
import DiskScope.Xfs.Superblock
import DiskScope.Xfs.TreeBlock

set_option autoImplicit false

namespace DiskScope.Xfs

open Text Unix

/-! ## Parts of an inode -/

/-- How the data fork is stored. -/
inductive ForkFormat where
  | device
  | inlined
  | extents
  | tree
  | uuid
  | unknown (code : Nat)
  deriving DecidableEq, Repr, Inhabited

namespace ForkFormat

/-- The format with this code. -/
def ofCode : Nat → ForkFormat
  | 0 => device
  | 1 => inlined
  | 2 => extents
  | 3 => tree
  | 4 => uuid
  | code => unknown code

/-- The name of a format. -/
def name : ForkFormat → String
  | device => "Dev"
  | inlined => "Local"
  | extents => "Extents"
  | tree => "Btree"
  | uuid => "Uuid"
  | unknown code => "Unknown(" ++ decimal code ++ ")"

end ForkFormat

/-- What the data fork holds. -/
inductive Fork where
  | device (number : Device)
  | extents (list : List Extent)
  /-- The root of an extent tree, of which only the header is decoded. -/
  | treeRoot (level recordCount : Nat) (raw : Bytes)
  | directory (dir : InlineDirectory)
  /-- The target of a symbolic link. -/
  | symlink (target : Bytes)
  /-- A combination of format and file type without a meaning. -/
  | unhandled (raw : Bytes)
  deriving DecidableEq, Repr, Inhabited

/-- A point in time. -/
structure Timestamp where
  /-- Seconds after the start of 1970. -/
  seconds : Int
  nanoseconds : Nat
  deriving DecidableEq, Repr, Inhabited

namespace Timestamp

/-- Seconds from the first time that a long timestamp can express to the start of 1970. -/
def longEpoch : Nat := 0x80000000

/-- The number of nanoseconds in a second. -/
def perSecond : Nat := 1000000000

/-- The signed integer with these 32 bits. -/
def signedWord (word : Nat) : Int :=
  if word < 0x80000000 then word else (word : Int) - 0x100000000

/-- The timestamp in the eight bytes at `off`: one count of nanoseconds if it is long, else seconds
and nanoseconds. -/
def ofBytes (data : Bytes) (off : Nat) (isLong : Bool) : Timestamp :=
  if isLong then
    { seconds := (data.be64 off / perSecond : Nat) - (longEpoch : Int)
      nanoseconds := data.be64 off % perSecond }
  else
    { seconds := signedWord (data.be32 off)
      nanoseconds := data.be32 (off + 4) }

/-- The timestamp as a date, a time and a fraction. -/
def render (time : Timestamp) : String :=
  Calendar.format time.seconds ++ "." ++ decimalPadded 9 time.nanoseconds

end Timestamp

/-- What version 3 adds to the core. -/
structure CoreExtension where
  crc : Nat
  changeCount : Nat
  lsn : Nat
  flags2 : Nat
  cowExtentSize : Nat
  created : Timestamp
  /-- The inode's own number. -/
  ino : Nat
  uuid : Bytes
  deriving DecidableEq, Repr, Inhabited

/-- A decoded inode. -/
structure Inode where
  ino : Nat
  version : Nat
  mode : Nat
  fileType : FileType
  format : ForkFormat
  uid : Nat
  gid : Nat
  linkCount : Nat
  size : Nat
  blockCount : Nat
  extentSize : Nat
  extentCount : Nat
  attrExtentCount : Nat
  /-- Where the attribute fork begins, in units of eight bytes from the end of the core; zero if
  there is none. -/
  forkOffset : Nat
  attrFormat : Nat
  flags : Nat
  generation : Nat
  accessed : Timestamp
  modified : Timestamp
  changed : Timestamp
  extension : Option CoreExtension
  fork : Fork
  deriving DecidableEq, Repr, Inhabited

namespace Inode

/-! ## Decoding -/

/-- The number of bytes of the core before version 3. -/
def shortCoreSize : Nat := 0x64

/-- The number of bytes of the core from version 3 on. -/
def longCoreSize : Nat := 0xB0

/-- The number of bytes of the core of a version. -/
def coreSize (version : Nat) : Nat := if 3 ≤ version then longCoreSize else shortCoreSize

/-- Where the version stands. -/
def versionOffset : Nat := 4

/-- Where the inode's own number stands from version 3 on. -/
def inoOffset : Nat := 0x98

/-- Whether the second flag word asks for long timestamps. -/
def asksLongTimes (flags2 : Nat) : Bool := flags2.testBit 3

/-- What version 3 adds to the core of `data`, which must be the inode `ino`. -/
def readExtension (data : Bytes) (ino : Nat) : Except Fault CoreExtension :=
  let onDisk := data.be64 inoOffset
  if onDisk = ino then
    let flags2 := data.be64 0x78
    .ok
      { crc := data.be32 0x64
        changeCount := data.be64 0x68
        lsn := data.be64 0x70
        flags2 := flags2
        cowExtentSize := data.be32 0x80
        created := Timestamp.ofBytes data 0x90 (asksLongTimes flags2)
        ino := onDisk
        uuid := data.slice 0xA0 16 }
  else .error (.inoMismatch ino onDisk)

/-- The bytes of the data fork after a core of `core` bytes. -/
def forkWindow (data : Bytes) (core forkOffset : Nat) : Bytes :=
  let rest := data.drop core
  if forkOffset = 0 then rest else rest.take (forkOffset * 8)

/-- The data fork of a file of `size` bytes. -/
def readFork (fork : Bytes) (format : ForkFormat) (fileType : FileType)
    (extentCount size : Nat) (hasType : Bool) : Except Fault Fork :=
  match format, fileType with
  | .extents, .regular | .extents, .directory | .extents, .symlink => do
    fork.require "extent list" Extent.size
    pure (.extents (Extent.listOf fork extentCount))
  | .tree, .regular | .tree, .directory => do
    fork.require "bmbt root" 4
    pure (.treeRoot (fork.be16 0) (fork.be16 2) fork)
  | .inlined, .directory => do
    let dir ← InlineDirectory.ofBytes fork hasType
    pure (.directory dir)
  | .inlined, .symlink => .ok (.symlink (fork.take size))
  | .device, .charDevice | .device, .blockDevice => do
    fork.require "device fork" 4
    pure (.device (Device.ofNumber (fork.be32 0)))
  | _, _ => .ok (.unhandled fork)

/-- The inode `ino` in the bytes `data`, on a filesystem that stores file types in directories or
not. -/
def ofBytes (data : Bytes) (ino : Nat) (hasType : Bool) : Except Fault Inode := do
  data.require "inode" shortCoreSize
  let magic := data.be16 0
  if magic ≠ Magic.inode then
    throw (.badMagic "inode" ("inode " ++ decimal ino) Magic.inode magic)
  let version := data.byteAt versionOffset
  let core := coreSize version
  data.require "inode" core
  let extension ←
    if 3 ≤ version then do pure (some (← readExtension data ino)) else pure none
  let isLong := extension.any fun added => asksLongTimes added.flags2
  let mode := data.be16 0x02
  let fileType := FileType.ofMode mode
  let format := ForkFormat.ofCode (data.byteAt 0x05)
  let forkOffset := data.byteAt 0x52
  let extentCount := data.be32 0x4C
  let size := data.be64 0x38
  let fork ←
    readFork (forkWindow data core forkOffset) format fileType extentCount size hasType
  pure
    { ino := ino
      version := version
      mode := mode
      fileType := fileType
      format := format
      uid := data.be32 0x08
      gid := data.be32 0x0C
      linkCount := if version = 1 then data.be16 0x06 else data.be32 0x10
      size := size
      blockCount := data.be64 0x40
      extentSize := data.be32 0x48
      extentCount := extentCount
      attrExtentCount := data.be16 0x50
      forkOffset := forkOffset
      attrFormat := data.byteAt 0x53
      flags := data.be16 0x5A
      generation := data.be32 0x5C
      accessed := Timestamp.ofBytes data 0x20 isLong
      modified := Timestamp.ofBytes data 0x28 isLong
      changed := Timestamp.ofBytes data 0x30 isLong
      extension := extension
      fork := fork }

/-! ## Addresses -/

/-- A place within a filesystem. -/
structure Location where
  block : Nat
  /-- In bytes from the start of the block. -/
  offset : Nat
  deriving DecidableEq, Repr, Inhabited

/-- How many inodes a block holds, at least one. -/
def perBlock (sb : Superblock) : Nat := max sb.inodesPerBlock 1

/-- Whether block numbers carry the group in the bits above `agBlockLog`. -/
def hasGroupBits (sb : Superblock) : Bool :=
  sb.agBlockLog != 0 && decide (sb.agBlockLog < 64) && decide (sb.agBlocks ≤ 1 <<< sb.agBlockLog)

/-- The block with the number `number`, whose high bits may be a group. -/
def linearBlock (sb : Superblock) (number : Nat) : Nat :=
  if hasGroupBits sb then
    number / (1 <<< sb.agBlockLog) * sb.agBlocks + number % (1 <<< sb.agBlockLog)
  else number

/-- Where the inode `ino` lies. -/
def locate (sb : Superblock) (ino : Nat) : Location :=
  { block := linearBlock sb (ino / perBlock sb)
    offset := ino % perBlock sb * sb.inodeSize }

/-- Reads the inode `ino`; none lies below the root directory's.  Where it begins is computed in
words. -/
def fetch (reader : BlockReader) (sb : Superblock) (ino : Nat) : Traced Inode :=
  if ino < sb.rootIno then .fail (.belowRootIno ino sb.rootIno)
  else do
    let place := locate sb ino
    Traced.debug ("inode " ++ decimal ino ++ ": block " ++ decimal place.block ++ " offset "
      ++ decimal place.offset)
    let data ← reader.readRaw (wrap (place.block * sb.blockSize + place.offset)) sb.inodeSize
    ofBytes data ino sb.hasFileType

/-! ## Display -/

/-- The lines of the core. -/
def coreLines (inode : Inode) : List String :=
  [ "inode " ++ decimal inode.ino ++ " (v" ++ decimal inode.version ++ "):",
    "  mode      = " ++ octal inode.mode ++ " " ++ modeString inode.mode ++ " ("
      ++ inode.fileType.name ++ ")",
    "  format    = " ++ inode.format.name,
    "  uid/gid   = " ++ decimal inode.uid ++ "/" ++ decimal inode.gid,
    "  nlink     = " ++ decimal inode.linkCount,
    "  size      = " ++ decimal inode.size,
    "  nblocks   = " ++ decimal inode.blockCount,
    "  extsize   = " ++ decimal inode.extentSize,
    "  nextents  = " ++ decimal inode.extentCount,
    "  anextents = " ++ decimal inode.attrExtentCount,
    "  forkoff   = " ++ decimal inode.forkOffset,
    "  aformat   = " ++ decimal inode.attrFormat,
    "  flags     = " ++ hexWide 4 inode.flags,
    "  gen       = " ++ decimal inode.generation,
    "  atime     = " ++ inode.accessed.render,
    "  mtime     = " ++ inode.modified.render,
    "  ctime     = " ++ inode.changed.render ]

/-- The lines of what version 3 adds. -/
def extensionLines (added : CoreExtension) : List String :=
  [ "  crc       = " ++ hexWide 8 added.crc,
    "  changecnt = " ++ decimal added.changeCount,
    "  lsn       = " ++ hexWide 16 added.lsn,
    "  flags2    = " ++ hex added.flags2,
    "  cowextsz  = " ++ decimal added.cowExtentSize,
    "  crtime    = " ++ added.created.render,
    "  uuid      = " ++ Text.uuid added.uuid ]

/-- The data fork as text. -/
def forkText (inode : Inode) : String :=
  match inode.fork with
  | .device number =>
    lines ["device " ++ decimal number.major ++ ":" ++ decimal number.minor]
  | .extents list =>
    lines ("extents:" :: list.mapIdx fun i extent => "  [" ++ decimal i ++ "] " ++ extent.line)
  | .treeRoot level recordCount raw =>
    lines ["bmbt root: level " ++ decimal level ++ ", " ++ decimal recordCount ++ " records"]
      ++ hexdump raw 0
  | .directory dir => dir.render
  | .symlink target => lines ["symlink -> " ++ Utf8.decode target]
  | .unhandled raw =>
    lines ["unhandled fork (" ++ inode.format.name ++ ", " ++ inode.fileType.name ++ "):"]
      ++ hexdump raw 0

/-- The inode as text. -/
def render (inode : Inode) : String :=
  lines (inode.coreLines ++ (inode.extension.map extensionLines).getD []) ++ inode.forkText

end Inode

end DiskScope.Xfs
