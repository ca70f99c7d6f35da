/-
  DiskScope/Main.lean --- the program.

  WHAT THIS FILE IS FOR.  It reads the command line, opens the files that the command
  needs, hands them to `Files.run`, and writes what comes back.  Nothing is decided
  here.
-/
import DiskScope.Command

set_option autoImplicit false

namespace DiskScope.Main

/-- How the command line is written. -/
def usage : String :=
  Text.lines
    [ "usage: diskscope [--force] [--json] [-v] COMMAND",
      "commands: mbr IMAGE | xfs-info IMAGE | xfs-ag IMAGE N | xfs-types",
      "          xfs-block IMAGE N [--sector N] [--as NAME] | xfs-inode IMAGE N",
      "          xfs-scan IMAGE [--stride N] | xfs-export IMAGE DESTINATION" ]

/-- The number of an error; one above 31 bits stands for its negative. -/
def errorNumber (code : UInt32) : Nat :=
  if code.toNat < 1 <<< 31 then code.toNat else (1 <<< 32) - code.toNat

/-- Why a file could not be used, for the errors that a path can meet. -/
def reasonOf : IO.Error → String
  | .noFileOrDirectory .. => PathFault.notFound.message
  | .permissionDenied .. => "Permission denied (os error 13)"
  | .inappropriateType _ code _ =>
    if errorNumber code = 20 then PathFault.notFolder.message else PathFault.isFolder.message
  | .invalidArgument _ code details =>
    if errorNumber code = 36 then PathFault.tooLong.message else details
  | error => toString error

/-- What the path of the file that a command reads leads to. -/
def readSource : Option String → IO (Except String FileNode)
  | none => pure (.ok .folder)
  | some path => do
    match ← (IO.FS.readBinFile path).toBaseIO with
    | .ok contents => pure (.ok (.image (Image.ofByteArray contents)))
    | .error error =>
      let reason := reasonOf error
      pure (if reason = PathFault.isFolder.message then .ok .folder else .error reason)

/-- Whether two paths lead to one file that is there. -/
def sameFile : Option String → Option String → IO Bool
  | some left, some right => do
    match ← (IO.FS.realPath left).toBaseIO, ← (IO.FS.realPath right).toBaseIO with
    | .ok first, .ok second => pure (first == second)
    | _, _ => pure false
  | _, _ => pure false

/-- Writes what a command wants written: why that could not be done, if it could not. -/
def writeDestination : Option String → Option Bytes → IO (Option String)
  | some path, some data => do
    match ← (IO.FS.writeBinFile path ⟨data.toArray⟩).toBaseIO with
    | .ok () => pure none
    | .error error => pure (some (reasonOf error))
  | _, _ => pure none

/-- Prints an answer and returns the exit code. -/
def deliver (answer : Answer) (threshold : Level) : IO UInt32 := do
  for event in answer.events do
    if threshold.shownAt event.level then IO.eprintln event.line
  IO.print answer.stdout
  match answer.failure with
  | some failure => IO.eprint failure.render
  | none => pure ()
  pure (UInt32.ofNat answer.exitCode)

/-- Carries out a request and returns the exit code.  A destination is opened only when there is
something to write; where that fails, the answer is the one for a refused destination. -/
def serve (request : Request) : IO UInt32 := do
  let source ← readSource request.command.source?
  let same ← sameFile request.command.source? request.command.destination?
  let files (refusal : Option String) : Files := ⟨fun _ => source, fun _ => refusal, fun _ _ => same⟩
  let answer := (files none).run request
  let refusal ← writeDestination request.command.destination? answer.written
  if refusal.isSome then deliver ((files refusal).run request) request.threshold
  else deliver answer request.threshold

end DiskScope.Main

/-- Runs the program. -/
def main (arguments : List String) : IO UInt32 := do
  match DiskScope.Request.ofArguments? arguments with
  | some request => DiskScope.Main.serve request
  | none =>
    IO.eprint DiskScope.Main.usage
    pure 2
