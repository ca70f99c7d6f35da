/-
  DiskScope/Report/Partition.lean --- partition tables as JSON.

  WHAT THIS FILE IS FOR.  A table is reported with the members of its boot sector and
  its logical partitions side by side; a table without logical partitions leaves
  their member out.
-/
import DiskScope.Partition.Table
import DiskScope.Report.Json

set_option autoImplicit false

namespace DiskScope.Report

open DiskScope.Partition

/-- A sector address by geometry. -/
def ofChs (chs : Chs) : Json :=
  .object [("head", .nat chs.head), ("sector", .nat chs.sector), ("cylinder", .nat chs.cylinder)]

/-- An entry as it is stored. -/
def ofEntry (entry : Entry) : Json :=
  .object
    [ ("bootable", .bool entry.bootable),
      ("partition_type", .nat entry.typeByte),
      ("start_lba", .nat entry.start),
      ("total_sectors", .nat entry.sectors),
      ("chs_start", ofChs entry.chsStart),
      ("chs_end", ofChs entry.chsEnd) ]

/-- A partition as it is listed. -/
def ofRow (row : Row) : Json :=
  .object
    [ ("number", .nat row.number),
      ("type_name", .text row.entry.typeName),
      ("partition_type_byte", .nat row.entry.typeByte),
      ("start_lba", .nat row.entry.start),
      ("end_lba", .nat row.entry.lastSector),
      ("sectors", .nat row.entry.sectors),
      ("size_bytes", .nat row.entry.byteSize),
      ("bootable", .bool row.entry.bootable),
      ("is_logical", .bool row.isLogical),
      ("is_extended_container", .bool row.entry.isExtended) ]

/-- A partition table. -/
def ofTable (table : Table) : Json :=
  .object
    ([ ("disk_signature", .nat table.boot.diskSignature),
       ("entries", .listOf ofEntry table.boot.entries) ]
      ++ (if table.logical.isEmpty then []
          else [("logical_partitions", .listOf ofEntry table.logical)])
      ++ [("protective_gpt", .bool table.protective)])

end DiskScope.Report
