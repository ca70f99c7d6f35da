/-
  DiskScope/Report/Xfs.lean --- filesystem structures as JSON.

  WHAT THIS FILE IS FOR.  Decoded structures are reported member by member in the order
  in which they are stored.  A choice between forms is an object whose only member
  is named for the form, or the bare name where the form holds nothing.
-/
import DiskScope.Report.Json
import DiskScope.Xfs.Scan

set_option autoImplicit false

namespace DiskScope.Report

open Xfs Unix

/-- A value under the name of its form. -/
def tagged (form : String) (value : Json) : Json := .object [(form, value)]

/-- Raw bytes as numbers. -/
def ofBytes (data : Bytes) : Json := .nats (data.map UInt8.toNat)

/-! ## Tree blocks and extents -/

/-- An extent. -/
def ofExtent (extent : Extent) : Json :=
  .object
    [ ("flag", .bool extent.unwritten),
      ("startoff", .nat extent.fileOffset),
      ("startblock", .nat extent.startBlock),
      ("blockcount", .nat extent.blockCount) ]

/-- The header of a tree block. -/
def ofTreeBlock (block : TreeBlock) : Json :=
  .object
    [ ("magic", .nat block.magic),
      ("level", .nat block.level),
      ("numrecs", .nat block.recordCount),
      ("leftsib", .nat block.leftSibling),
      ("rightsib", .nat block.rightSibling),
      ("crc", .bool block.hasCrc),
      ("verified", .bool block.isVerified) ]

/-- A free-space record. -/
def ofFreeRecord (record : FreeRecord) : Json :=
  .object [("startblock", .nat record.start), ("blockcount", .nat record.count)]

/-- An inode chunk record. -/
def ofInodeRecord : InodeRecord → Json
  | .full start freeCount free =>
    tagged "Full"
      (.object [("startino", .nat start), ("freecount", .nat freeCount), ("free", .nat free)])
  | .sparse start holeMask count freeCount free =>
    tagged "Sparse"
      (.object
        [ ("startino", .nat start),
          ("holemask", .nat holeMask),
          ("count", .nat count),
          ("freecount", .nat freeCount),
          ("free", .nat free) ])

/-- A reference-count record. -/
def ofRefcountRecord (record : RefcountRecord) : Json :=
  .object
    [ ("startblock", .nat record.start),
      ("blockcount", .nat record.count),
      ("refcount", .nat record.references) ]

/-- A reverse-mapping record. -/
def ofOwnerRecord (record : OwnerRecord) : Json :=
  .object
    [ ("startblock", .nat record.start),
      ("blockcount", .nat record.count),
      ("owner", .nat record.owner),
      ("offset", .nat record.offset) ]

/-! ## Inodes -/

/-- The name of a file type's form. -/
def fileTypeForm : FileType → String
  | .regular => "Regular"
  | .directory => "Directory"
  | .symlink => "Symlink"
  | .blockDevice => "BlockDevice"
  | .charDevice => "CharDevice"
  | .fifo => "Fifo"
  | .socket => "Socket"
  | .unknown => "Unknown"

/-- A file type. -/
def ofFileType (fileType : FileType) : Json := .text (fileTypeForm fileType)

/-- A fork format. -/
def ofForkFormat : ForkFormat → Json
  | .unknown code => tagged "Unknown" (.nat code)
  | format => .text format.name

/-- A directory entry. -/
def ofDirectoryEntry (entry : DirectoryEntry) : Json :=
  .object
    [ ("name", .text entry.name),
      ("offset", .nat entry.offset),
      ("ftype", .option .nat entry.fileType),
      ("inumber", .nat entry.ino) ]

/-- An inline directory. -/
def ofDirectory (dir : InlineDirectory) : Json :=
  .object
    [ ("count", .nat dir.count),
      ("i8count", .nat dir.wideCount),
      ("parent", .nat dir.parent),
      ("entries", .listOf ofDirectoryEntry dir.entries) ]

/-- A data fork. -/
def ofFork : Fork → Json
  | .device number =>
    tagged "Device" (.object [("major", .nat number.major), ("minor", .nat number.minor)])
  | .extents list => tagged "Extents" (.listOf ofExtent list)
  | .treeRoot level recordCount raw =>
    tagged "BtreeRoot"
      (.object [("level", .nat level), ("numrecs", .nat recordCount), ("raw", ofBytes raw)])
  | .directory dir => tagged "Directory" (ofDirectory dir)
  | .symlink target => tagged "Symlink" (.object [("target", .text (Text.Utf8.decode target))])
  | .unhandled raw => tagged "Unhandled" (.object [("raw", ofBytes raw)])

/-- A timestamp. -/
def ofTimestamp (time : Timestamp) : Json :=
  .object [("sec", .number time.seconds), ("nsec", .nat time.nanoseconds)]

/-- What version 3 adds to an inode. -/
def ofCoreExtension (added : CoreExtension) : Json :=
  .object
    [ ("crc", .nat added.crc),
      ("changecount", .nat added.changeCount),
      ("lsn", .nat added.lsn),
      ("flags2", .nat added.flags2),
      ("cowextsize", .nat added.cowExtentSize),
      ("crtime", ofTimestamp added.created),
      ("ino", .nat added.ino),
      ("uuid", .text (Text.uuid added.uuid)) ]

/-- An inode. -/
def ofInode (inode : Inode) : Json :=
  .object
    [ ("ino", .nat inode.ino),
      ("version", .nat inode.version),
      ("mode", .nat inode.mode),
      ("file_type", ofFileType inode.fileType),
      ("format", ofForkFormat inode.format),
      ("uid", .nat inode.uid),
      ("gid", .nat inode.gid),
      ("nlink", .nat inode.linkCount),
      ("size", .nat inode.size),
      ("nblocks", .nat inode.blockCount),
      ("extsize", .nat inode.extentSize),
      ("nextents", .nat inode.extentCount),
      ("anextents", .nat inode.attrExtentCount),
      ("forkoff", .nat inode.forkOffset),
      ("aformat", .nat inode.attrFormat),
      ("flags", .nat inode.flags),
      ("gen", .nat inode.generation),
      ("atime", ofTimestamp inode.accessed),
      ("mtime", ofTimestamp inode.modified),
      ("ctime", ofTimestamp inode.changed),
      ("v3", .option ofCoreExtension inode.extension),
      ("fork", ofFork inode.fork) ]

/-! ## Scans -/

/-- The name of a structure's form. -/
def structureForm : Structure → String
  | .superblock => "Superblock"
  | .agf => "Agf"
  | .agi => "Agi"
  | .agfl => "Agfl"
  | .freeByBlock => "FreeByBlock"
  | .freeByBlockCrc => "FreeByBlockCrc"
  | .freeBySize => "FreeBySize"
  | .freeBySizeCrc => "FreeBySizeCrc"
  | .inodeTree => "InodeBtree"
  | .inodeTreeCrc => "InodeBtreeCrc"
  | .freeInodeTree => "FreeInodeBtree"
  | .freeInodeTreeCrc => "FreeInodeBtreeCrc"
  | .refcountTree => "RefcountBtree"
  | .reverseMapTree => "RmapBtree"
  | .extentMapTree => "BmapBtree"
  | .extentMapTreeCrc => "BmapBtreeCrc"
  | .logRecord => "LogRecord"
  | .inode => "Inode"
  | .quota => "Dquot"

/-- A structure. -/
def ofStructure (kind : Structure) : Json := .text (structureForm kind)

/-- A hit of a scan. -/
def ofScanHit : ScanHit → Json
  | .found block offset kind =>
    .object
      [ ("hit", .text "structure"),
        ("block", .nat block),
        ("offset", .nat offset),
        ("kind", ofStructure kind) ]
  | .logRange first last =>
    .object
      [("hit", .text "log_range"), ("first_block", .nat first), ("last_block", .nat last)]

end DiskScope.Report
