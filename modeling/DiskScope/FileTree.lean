/-
  DiskScope/FileTree.lean --- what a path leads to.

  WHAT THIS FILE IS FOR.  A path is followed part by part from the top of a tree of
  files or from the folder one is in.  Every place on the way must be a folder that
  exists; the place at the end may be anything, or nothing yet.

  READING AND WRITING differ at the end.  `find` looks for what is there, and a folder
  is found like anything else.  `destination` looks for a place at which a file
  can be, whether or not there is one, and refuses folders and everything spelled
  like one.

  A tree is a function from places to what is there, so it need not be finite or known in
  full.
-/
import DiskScope.Image

set_option autoImplicit false

namespace DiskScope

/-! ## Paths -/

/-- Why a path cannot be followed or used. -/
inductive PathFault where
  /-- Nothing is there. -/
  | notFound
  /-- A file stands where the path asks for a folder. -/
  | notFolder
  /-- A folder stands where a file is needed. -/
  | isFolder
  /-- The path or a part of it is longer than a system takes. -/
  | tooLong
  deriving DecidableEq, Repr, Inhabited

/-- The wording of a fault, with the number that systems give it. -/
def PathFault.message : PathFault → String
  | notFound => "No such file or directory (os error 2)"
  | notFolder => "Not a directory (os error 20)"
  | isFolder => "Is a directory (os error 21)"
  | tooLong => "File name too long (os error 36)"

/-- A path taken apart. -/
structure Path where
  /-- Whether it begins at the top and not where one is. -/
  absolute : Bool
  /-- The parts between slashes, without the empty ones. -/
  parts : List String
  /-- Whether it ends in a slash, as only the path of a folder may. -/
  asFolder : Bool
  deriving DecidableEq, Repr, Inhabited

namespace Path

/-- The most bytes that a path may have. -/
def maxBytes : Nat := 4095

/-- The most bytes that a part may have. -/
def maxPartBytes : Nat := 255

/-- The path that a text spells. -/
def ofString (text : String) : Path :=
  { absolute := text.toList.head? = some '/'
    parts := (text.splitOn "/").filter (· ≠ "")
    asFolder := text.toList.getLast? = some '/' }

/-- The name of the file that a path leads to: its last part, unless that goes up. -/
def fileName? (path : Path) : Option String :=
  ((path.parts.filter (· ≠ ".")).getLast?).filter (· ≠ "..")

end Path

/-! ## Trees -/

/-- What a path can lead to. -/
inductive FileNode where
  | image (image : Image)
  | folder

/-- A tree of files, seen from one of its folders. -/
structure FileTree where
  /-- What is at a place, given by the names that lead to it from the top. -/
  node? : List String → Option FileNode
  /-- The place of the folder where relative paths begin. -/
  here : List String

namespace FileTree

/-- Refuses a place that is no folder. -/
def requireFolder (tree : FileTree) (place : List String) : Except PathFault Unit :=
  match tree.node? place with
  | some .folder => .ok ()
  | some (.image _) => .error .notFolder
  | none => .error .notFound

/-- Follows one part of a path from the folder at `place`. -/
def follow (tree : FileTree) (place : List String) (part : String) :
    Except PathFault (List String) := do
  tree.requireFolder place
  if part = "." then pure place
  else if part = ".." then pure place.dropLast
  else if Path.maxPartBytes < part.utf8ByteSize then .error .tooLong
  else pure (place ++ [part])

/-- The place that a path leads to; what is there is not looked at. -/
def place (tree : FileTree) (text : String) : Except PathFault (List String) :=
  if text = "" then .error .notFound
  else if Path.maxBytes < text.utf8ByteSize then .error .tooLong
  else
    let path := Path.ofString text
    path.parts.foldlM tree.follow (if path.absolute then [] else tree.here)

/-- What a path leads to. -/
def find (tree : FileTree) (text : String) : Except PathFault FileNode := do
  let place ← tree.place text
  if (Path.ofString text).asFolder then tree.requireFolder place
  match tree.node? place with
  | some node => pure node
  | none => .error .notFound

/-- The place of the file that a path leads to, which may yet have to be made. -/
def destination (tree : FileTree) (text : String) : Except PathFault (List String) := do
  let place ← tree.place text
  if (Path.ofString text).asFolder then .error .isFolder
  else
    match tree.node? place with
    | some .folder => .error .isFolder
    | _ => pure place

/-- Whether two paths lead to one file that is there. -/
def same (tree : FileTree) (left right : String) : Bool :=
  match tree.find left, tree.place left, tree.destination right with
  | .ok (.image _), .ok first, .ok second => first == second
  | _, _, _ => false

end FileTree

end DiskScope
