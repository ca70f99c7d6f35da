/-
  DiskScope/Xfs/FreeSpace.lean --- which blocks of a filesystem are in use.

  WHAT THIS FILE IS FOR.  Every group lists its free blocks in a tree ordered by block
  number.  The trees of all groups are walked into one bitmap of free blocks, the
  total of each tree is compared with the number that the group's header gives,
  and the runs of clear bits are the used blocks.

  WALKING A DAMAGED TREE.  At most as many blocks are visited as a group has, so pointers
  that run in a circle end the walk.  A child must have a magic of the tree and a
  level one below its parent; another one is an anomaly, and is skipped when let
  pass.  All children of a block are read before any is visited.

  A `Sink` takes the used runs one by one.  None is handed out before every tree has
  been walked, so a filesystem that cannot be reconciled writes nothing.
-/
import DiskScope.Bitmap
import DiskScope.Xfs.Group

set_option autoImplicit false

namespace DiskScope.Xfs

open Text

/-! ## One group -/

/-- Marks free records that count from block `base`. -/
def markFree (base : Nat) (free : Bitmap) (record : FreeRecord) : Bitmap :=
  (free.setRange (base + record.start) record.count).2

/-- The number of blocks that records account for. -/
def recordTotal (records : List FreeRecord) : Nat :=
  records.foldl (fun total record => total + record.count) 0

/-- Marks the free records of a group that begins at block `base`, and compares their total with the
number of free blocks that the group's header gives. -/
def reconcileGroup (free : Bitmap) (ag base : Nat) (records : List FreeRecord) (recorded : Nat) :
    Bitmap × Except Fault Nat :=
  let counted := recordTotal records
  (records.foldl (markFree base) free,
    if counted = recorded then .ok counted
    else .error (.freeCountMismatch ag recorded counted))

/-! ## Walking a tree -/

/-- A block that the walk has yet to visit. -/
structure Visit where
  data : Bytes
  /-- The level that the parent asks for; none for the root. -/
  level : Option Nat
  deriving DecidableEq, Repr, Inhabited

/-- Refuses a child that belongs to another tree or another level. -/
def checkChild (group : Group) (block : TreeBlock) : Option Nat → Except Fault Unit
  | none => .ok ()
  | some level =>
    if TreeKind.freeByBlock.accepts block.magic && block.level == level then .ok ()
    else
      .error (.badMagic TreeKind.freeByBlock.name
        (Group.label group.index ++ " level " ++ decimal level)
        TreeKind.freeByBlock.mainMagic block.magic)

/-- The blocks at `pointers`, read from the last to the first. -/
def readChildren (read : Nat → Except Fault Bytes) (base : Nat) :
    List Nat → Except Fault (List Bytes)
  | [] => .ok []
  | pointer :: rest => do
    let later ← readChildren read base rest
    let data ← read (base + pointer)
    pure (data :: later)

/-- The free records in the trees that hang from a stack of visits, in at most `budget` blocks, where
`read` gives the contents of a block. -/
def walkFreeTree (read : Nat → Except Fault Bytes) (sb : Superblock) (group : Group) (mode : Mode) :
    (budget : Nat) → List Visit → Traced (List FreeRecord)
  | _, [] => pure []
  | 0, _ :: _ => do
    Traced.warn (Group.label group.index ++ ": free-space btree walk stopped after "
      ++ decimal sb.agBlocks ++ " nodes")
    pure []
  | budget + 1, visit :: stack => do
    let block ← TreeBlock.ofBytes visit.data
    let fits ← mode.tolerateCheck (checkChild group block visit.level)
    if !fits then walkFreeTree read sb group mode budget stack
    else if block.isLeaf then do
      let records ← block.freeRecords visit.data
      let rest ← walkFreeTree read sb group mode budget stack
      pure (records ++ rest)
    else do
      let pointers ← block.childPointers visit.data Content.freeSpace.keySize
      let children ← readChildren read (group.baseBlock sb.agBlocks) pointers
      walkFreeTree read sb group mode budget
        (children.map (fun data => ⟨data, some (block.level - 1)⟩) ++ stack)

/-- The free records of a group whose tree has the root block `root`. -/
def freeRecordsOf (reader : BlockReader) (sb : Superblock) (group : Group) (mode : Mode)
    (root : Bytes) : Traced (List FreeRecord) :=
  walkFreeTree reader.block sb group mode sb.agBlocks [⟨root, none⟩]

/-! ## All groups -/

/-- Adds the free blocks of `group` to a map. -/
def addGroup (reader : BlockReader) (sb : Superblock) (mode : Mode) (free : Bitmap)
    (group : Group) : Traced Bitmap :=
  match group.tree? .freeByBlock with
  | none => do
    let _ ← mode.tolerateCheck (.error (.missingFreeTree group.index))
    Traced.warn (Group.label group.index ++ ": treating every block as used")
    pure free
  | some root => do
    let records ← freeRecordsOf reader sb group mode root
    let (marked, counted) := reconcileGroup free group.index (group.baseBlock sb.agBlocks) records
      group.freeHeader.freeBlocks
    let agrees ← mode.tolerateCheck (counted.map fun _ => ())
    Traced.debug (Group.label group.index ++ ": " ++ decimal records.length
      ++ " free records, count " ++ (if agrees then "matches AGF" else "differs from AGF"))
    pure marked

/-- Adds the free blocks of every group to a map. -/
def addGroups (reader : BlockReader) (sb : Superblock) (mode : Mode) :
    Bitmap → List Group → Traced Bitmap
  | free, [] => pure free
  | free, group :: rest => do
    let marked ← addGroup reader sb mode free group
    addGroups reader sb mode marked rest

/-- The map of all free blocks. -/
def freeMap (reader : BlockReader) (sb : Superblock) (groups : List Group) (mode : Mode) :
    Traced Bitmap :=
  addGroups reader sb mode (Bitmap.blank sb.blocks) groups

/-- The runs of used blocks, in order. -/
def usedRuns (reader : BlockReader) (sb : Superblock) (groups : List Group) (mode : Mode) :
    Traced (List Run) := do
  let free ← freeMap reader sb groups mode
  Traced.info (decimal free.count ++ " of " ++ decimal sb.blocks ++ " blocks free")
  pure free.clearRuns

/-! ## Handing the runs out -/

/-- Something that takes runs of used blocks, and keeps a state of type `σ`.  If it has blocks counted
in another size from then on, that is a part of its state. -/
structure Sink (σ : Type) where
  /-- Takes one run; the state says what was done even when that failed. -/
  write : BlockReader → Run → σ → σ × Except Fault Unit

namespace Sink

variable {σ : Type}

/-- Hands out runs until one is refused: the number of blocks that were taken. -/
def drain (sink : Sink σ) (reader : BlockReader) : List Run → σ → σ × Traced Nat
  | [], state => (state, pure 0)
  | run :: rest, state =>
    let event : Event := .note .debug ("used run: block " ++ decimal run.start ++ ", "
      ++ decimal run.length ++ " blocks")
    match sink.write reader run state with
    | (after, .error fault) => (after, ⟨[event], .error fault⟩)
    | (after, .ok ()) =>
      let (final, taken) := drain sink reader rest after
      (final, ⟨event :: taken.events, taken.outcome.map (run.length + ·)⟩)

/-- Finds the used runs and then hands them out. -/
def exportUsed (sink : Sink σ) (reader : BlockReader) (sb : Superblock) (groups : List Group)
    (mode : Mode) (state : σ) : σ × Traced Nat :=
  let plan := usedRuns reader sb groups mode
  match plan.outcome with
  | .error fault => (state, ⟨plan.events, .error fault⟩)
  | .ok runs =>
    let (final, taken) := sink.drain reader runs state
    (final, ⟨plan.events ++ taken.events, taken.outcome⟩)

end Sink

end DiskScope.Xfs
