/-
  DiskScope/Command.lean --- the commands of the program, without their effects.

  WHAT THIS FILE IS FOR.  Running a command is a function from the files that it may
  open to an `Answer`: what to print, why it failed if it did, what to write, and
  the trace of the run.  Only the program's entry point touches files and streams.

  A failure is a chain of texts from the outermost circumstance to the innermost
  cause.  A failed device access is two causes: that it failed, and why.

  FILES AS DEVICES.  A folder can be opened, and then no read of it succeeds.  An image
  is read as a file, so not every position can be sought.  A destination is emptied before
  the first block is copied, so an image that is its own destination has nothing left.
-/
import DiskScope.CommandLine
import DiskScope.FileTree
import DiskScope.Report.Partition
import DiskScope.Report.Xfs
import DiskScope.Xfs.Volume

set_option autoImplicit false

namespace DiskScope

open Text Xfs

/-! ## Failures -/

/-- Why a command failed, from the outside in. -/
structure Failure where
  headline : String
  causes : List String
  deriving DecidableEq, Repr, Inhabited

namespace Failure

/-- The causes that a fault makes. -/
def causesOf : Fault → List String
  | .io reason => [(Fault.io reason).message, reason]
  | fault => [fault.message]

/-- A fault under the circumstance in which it arose. -/
def under (headline : String) (fault : Fault) : Failure := ⟨headline, causesOf fault⟩

/-- The lines of the causes, numbered if there are several. -/
def causeLines : List String → List String
  | [] => []
  | [cause] => ["", "Caused by:", "    " ++ cause]
  | causes =>
    ["", "Caused by:"] ++ causes.mapIdx fun i cause => padLeft 5 (decimal i) ++ ": " ++ cause

/-- The failure as text. -/
def render (failure : Failure) : String :=
  lines (("Error: " ++ failure.headline) :: causeLines failure.causes)

end Failure

/-! ## Answers -/

/-- What a command may open. -/
structure Files where
  /-- What a path leads to, or why it leads nowhere. -/
  find : String → Except String FileNode
  /-- Why a file cannot be written, if it cannot. -/
  refusal : String → Option String
  /-- Whether two paths lead to the same file. -/
  same : String → String → Bool

/-- The files of a tree. -/
def Files.ofTree (tree : FileTree) : Files :=
  { find := fun path => (tree.find path).mapError PathFault.message
    refusal := fun path =>
      match tree.destination path with
      | .ok _ => none
      | .error fault => some fault.message
    same := tree.same }

/-- What came of a command. -/
structure Answer where
  stdout : String
  failure : Option Failure
  /-- The bytes to write to the destination; none if it is not to be touched. -/
  written : Option Bytes
  events : List Event

namespace Answer

/-- A successful answer that prints `text`. -/
def print (text : String) (events : List Event) : Answer := ⟨text, none, none, events⟩

/-- A failed answer that prints nothing. -/
def fail (failure : Failure) (events : List Event) : Answer := ⟨"", some failure, none, events⟩

/-- The exit code. -/
def exitCode (answer : Answer) : Nat := if answer.failure.isSome then 1 else 0

/-- Goes on with what a run answers; its failure is put under `headline`. -/
def after {α : Type} (run : Traced α) (headline : String) (next : α → Answer) : Answer :=
  match run.outcome with
  | .error fault => fail (.under headline fault) run.events
  | .ok a =>
    let answer := next a
    { answer with events := run.events ++ answer.events }

end Answer

/-! ## Running -/

namespace Files

/-- Goes on with the contents of an image; a first read that fails is put under `headline`. -/
def withImage (files : Files) (path headline : String) (next : Image → Answer) : Answer :=
  match files.find path with
  | .error reason => .fail ⟨"cannot open " ++ path, [reason]⟩ []
  | .ok .folder => .fail (.under headline (.io PathFault.isFolder.message)) []
  | .ok (.image image) => next image.inFile

/-- Goes on with the filesystem in an image. -/
def withVolume (files : Files) (path : String) (mode : Mode) (next : Volume → Answer) : Answer :=
  let headline := path ++ " is not a readable XFS filesystem"
  files.withImage path headline fun image => .after (Volume.detect image mode) headline next

/-- Lists a partition table. -/
def runPartitions (files : Files) (request : Request) (path : String) : Answer :=
  let headline := "cannot read partition table of " ++ path
  files.withImage path headline fun image =>
    .after (Partition.Table.detect image request.mode) headline fun table =>
      .print
        (if request.json then lines [(Report.ofTable table).pretty]
          else table.listing (((Path.ofString path).fileName?).getD path)) []

/-- Shows a group. -/
def showGroup (volume : Volume) (agno : Nat) : Answer :=
  match volume.group? agno with
  | some group => .print (group.render volume.sb.isV5) []
  | none =>
    .fail ⟨"AG " ++ decimal agno ++ " out of range: filesystem has "
      ++ decimal volume.groups.length ++ " AGs", []⟩ []

/-- Shows a block. -/
def showBlock (volume : Volume) (block : Nat) (sector : Option Nat) (kind : Option String) :
    Answer :=
  .after (Traced.ofExcept (volume.read block sector)) ("cannot read block " ++ decimal block)
    fun data =>
      match kind with
      | some name =>
        match Structure.byName? name with
        | some kind => .print (volume.render kind data) []
        | none => .fail ⟨"unknown structure type '" ++ name ++ "', see xfs-types", []⟩ []
      | none =>
        match Structure.identify data with
        | some kind => .print (volume.render kind data) []
        | none =>
          .print (lines ["no known magic in block " ++ decimal block] ++ hexdump data 0) []

/-- Shows an inode. -/
def showInode (volume : Volume) (ino : Nat) (json : Bool) : Answer :=
  .after (volume.fetchInode ino) ("cannot decode inode " ++ decimal ino) fun inode =>
    .print (if json then lines [(Report.ofInode inode).pretty] else inode.render) []

/-- The lines of a scan up to its fault, and the fault. -/
def scanLines (json : Bool) : List (Except Fault ScanHit) → List String × Option Fault
  | [] => ([], none)
  | .error fault :: _ => ([], some fault)
  | .ok hit :: rest =>
    let (later, fault) := scanLines json rest
    ((if json then (Report.ofScanHit hit).compact else hit.line) :: later, fault)

/-- Shows what a scan finds. -/
def showScan (volume : Volume) (stride : Option Nat) (json : Bool) : Answer :=
  .after (volume.scan stride) "scan aborted" fun scan =>
    let (shown, fault) := scanLines json scan.toList
    { stdout := lines shown
      failure := fault.map (Failure.under "scan aborted")
      written := none
      events := [] }

/-- Writes the used blocks of the filesystem at `path`. -/
def runExport (files : Files) (volume : Volume) (path destination : String) : Answer :=
  let headline := "export to " ++ destination ++ " failed"
  match files.refusal destination with
  | some reason => .fail (.under headline (.io reason)) []
  | none =>
    let source := if files.same path destination then volume.emptied else volume
    let (file, run) := source.exportSparse destination
    { Answer.after run headline (fun used =>
        .print (lines ["wrote " ++ decimal used ++ " used blocks of " ++ decimal volume.sb.blocks
          ++ " to " ++ destination]) []) with
      written := some file }

/-- Carries out a request. -/
def run (files : Files) (request : Request) : Answer :=
  match request.command with
  | .partitions path => files.runPartitions request path
  | .info path =>
    files.withVolume path request.mode fun volume => .print volume.sb.render []
  | .group path agno =>
    files.withVolume path request.mode fun volume => showGroup volume agno
  | .block path block sector kind =>
    files.withVolume path request.mode fun volume => showBlock volume block sector kind
  | .inode path ino =>
    files.withVolume path request.mode fun volume => showInode volume ino request.json
  | .scan path stride =>
    files.withVolume path request.mode fun volume => showScan volume stride request.json
  | .writeUsed path destination =>
    files.withVolume path request.mode fun volume =>
      files.runExport volume path destination
  | .types => .print Structure.listing []

end Files

end DiskScope
