/-
  DiskScope/Proofs/Xfs/Inquiries.lean --- questions to a filesystem, asked of a device.

  WHAT THIS FILE IS FOR.  An opened filesystem is asked for blocks, sectors, inodes, scans and
  exports.  The library's functions take the image as a value, so they cannot be run on a
  drive.  Here it is shown of each of them that some accesses to a device find out what it
  answers.  Which ones is not said a second time: what a function reads follows from how it
  is put together.

  WHAT IS LENT.  A sink is lent the device, to copy the blocks of a run.  What it does there is any
  reading: it may read other blocks as well, stop where it likes, fail, or count blocks in
  another size.  Files that an export writes are other files than the image.

  WHAT IS LEFT.  A block size that a sink has set stays set, and all that comes later finds
  it.  Nothing else that is asked changes it.

  WHERE A SCAN STOPS.  A scan is dropped when the items that were asked for have been handed out,
  and it reads no further than that.  One that is asked for enough of them is complete.

  MAIN STATEMENTS.

      observable_walkFreeTree    trees can be walked on a device
      observable_takeFrom        so can scans be continued, wherever they stand
      Outlet.feasible_drain      and used blocks be handed out, whatever is done with them
      Volume.feasible_reply      every question can be asked of a device
-/
import DiskScope.Proofs.Drive
import DiskScope.Proofs.Xfs.ScanFailure
import DiskScope.Xfs.Volume

set_option autoImplicit false

namespace DiskScope.Xfs

open Text

variable {σ : Type}

/-! ## Free space -/

section FreeSpace

variable (sb : Superblock) (mode : Mode)

theorem observable_block (number : Nat) : Observable fun reader => reader.block number :=
  .readBlocks number 1

theorem observable_readChildren (base : Nat) (pointers : List Nat) :
    Observable fun reader => readChildren reader.block base pointers := by
  induction pointers with
  | nil => exact .const (Except.ok [])
  | cons pointer rest ih =>
    refine ih.bindExcept fun later => ?_
    refine (observable_block (base + pointer)).bindExcept fun data => ?_
    exact .const _

theorem observable_walkFreeTree (group : Group) (budget : Nat) (stack : List Visit) :
    Observable fun reader => walkFreeTree reader.block sb group mode budget stack := by
  induction budget generalizing stack with
  | zero => cases stack <;> exact .const _
  | succ budget ih =>
    cases stack with
    | nil => exact .const _
    | cons visit stack =>
      refine .bindTraced (.const _) fun block => ?_
      refine .bindTraced (.const _) fun fits => ?_
      refine .ite (ih stack) (.ite ?_ ?_)
      · refine .bindTraced (.const _) fun records => ?_
        refine (ih stack).bindTraced fun rest => ?_
        exact .const _
      · refine .bindTraced (.const _) fun pointers => ?_
        refine (observable_readChildren _ pointers).lift.bindTraced fun children => ?_
        exact ih _

theorem observable_addGroup (free : Bitmap) (group : Group) :
    Observable fun reader => addGroup reader sb mode free group := by
  unfold addGroup
  cases group.tree? .freeByBlock with
  | none => exact .const _
  | some root =>
    refine (observable_walkFreeTree sb mode group _ _).bindTraced fun records => ?_
    exact .const _

theorem observable_addGroups (free : Bitmap) (groups : List Group) :
    Observable fun reader => addGroups reader sb mode free groups := by
  induction groups generalizing free with
  | nil => exact .const _
  | cons group rest ih =>
    refine (observable_addGroup sb mode free group).bindTraced fun marked => ?_
    exact ih marked

theorem observable_usedRuns (groups : List Group) :
    Observable fun reader => usedRuns reader sb groups mode := by
  refine (observable_addGroups sb mode _ groups).bindTraced fun free => ?_
  exact .const _

end FreeSpace

/-! ## Handing the runs out -/

/-- What one more run in front adds to the trace and to the count. -/
def countRun (run : Run) (rest : σ × Traced Nat) : σ × Traced Nat :=
  (rest.1, ⟨.note .debug ("used run: block " ++ decimal run.start ++ ", "
    ++ decimal run.length ++ " blocks") :: rest.2.events, rest.2.outcome.map (run.length + ·)⟩)

/-- What the plan of an export adds to the trace. -/
def countPlan (plan : List Event) (drained : σ × Traced Nat) : σ × Traced Nat :=
  (drained.1, ⟨plan ++ drained.2.events, drained.2.outcome⟩)

section Sinks

variable {sink : Sink σ} {reader : BlockReader} {run : Run} {state after : σ}

/-- A run that is refused is the last. -/
theorem Sink.drain_of_refused {fault : Fault} (rest : List Run)
    (h : sink.write reader run state = (after, .error fault)) :
    sink.drain reader (run :: rest) state = countRun run (after, .fail fault) := by
  rw [drain, h]
  rfl

theorem Sink.drain_of_taken (rest : List Run) (h : sink.write reader run state = (after, .ok ())) :
    sink.drain reader (run :: rest) state = countRun run (sink.drain reader rest after) := by
  rw [drain, h]
  rfl

section Plans

variable {sb : Superblock} {groups : List Group} {mode : Mode} {plan : Traced (List Run)}

/-- An export without a plan leaves the state as it was. -/
theorem Sink.exportUsed_of_error {fault : Fault} (hplan : usedRuns reader sb groups mode = plan)
    (h : plan.outcome = .error fault) :
    sink.exportUsed reader sb groups mode state = (state, ⟨plan.events, .error fault⟩) := by
  rw [exportUsed, hplan, h]

theorem Sink.exportUsed_of_ok {runs : List Run} (hplan : usedRuns reader sb groups mode = plan)
    (h : plan.outcome = .ok runs) :
    sink.exportUsed reader sb groups mode state =
      countPlan plan.events (sink.drain reader runs state) := by
  rw [exportUsed, hplan, h]
  rfl

end Plans

/-- A sink whose writes can be read for can be handed runs. -/
theorem observable_drain
    (hsink : ∀ run state, Observable fun reader => sink.write reader run state) (runs : List Run)
    (state : σ) : Observable fun reader => sink.drain reader runs state := by
  induction runs generalizing state with
  | nil => exact .const _
  | cons run rest ih =>
    refine (hsink run state).byAnswer fun answer => ?_
    rcases answer with ⟨after, fault | _⟩
    · exact ⟨_, .const (countRun run (after, .fail fault)),
        fun reader hwrite => Sink.drain_of_refused rest hwrite⟩
    · exact ⟨_, (ih after).map (countRun run), fun reader hwrite => Sink.drain_of_taken rest hwrite⟩

theorem observable_exportUsed
    (hsink : ∀ run state, Observable fun reader => sink.write reader run state) (sb : Superblock)
    (groups : List Group) (mode : Mode) (state : σ) :
    Observable fun reader => sink.exportUsed reader sb groups mode state := by
  refine (observable_usedRuns sb mode groups).byAnswer fun plan => ?_
  cases hplan : plan.outcome with
  | error fault =>
    exact ⟨_, .const (state, ⟨plan.events, .error fault⟩),
      fun reader hread => Sink.exportUsed_of_error hread hplan⟩
  | ok runs =>
    exact ⟨_, (observable_drain hsink runs state).map (countPlan plan.events),
      fun reader hread => Sink.exportUsed_of_ok hread hplan⟩

end Sinks

/-- Something that takes runs of used blocks and has a device at its disposal. -/
structure Outlet (σ : Type) where
  /-- Takes one run; the state says what was done even when that failed. -/
  write : Run → σ → Reading (σ × Except Fault Unit)

namespace Outlet

variable (outlet : Outlet σ)

/-- The outlet as a sink, which remembers in which size it has left blocks to be counted. -/
def sink : Sink (σ × Nat) where
  write reader run kept :=
    let (answer, left) := (outlet.write run kept.1).answer (reader.withBlockSize kept.2)
    ((answer.1, left.blockSize), answer.2)

/-- The outlet hands the device back as it has found it. -/
def Keeps : Prop :=
  ∀ run state reader, ((outlet.write run state).answer reader).2 = reader

/-- What has come of it, and the reader that is left: with blocks counted in the size that the sink
remembers. -/
def leave (reader : BlockReader) {β : Type} (answer : (σ × Nat) × β) : (σ × β) × BlockReader :=
  ((answer.1.1, answer.2), reader.withBlockSize answer.1.2)

/-- In which size blocks were counted before does not matter to the sink. -/
theorem drain_withBlockSize (blockSize : Nat) (runs : List Run) (kept : σ × Nat)
    (reader : BlockReader) :
    outlet.sink.drain (reader.withBlockSize blockSize) runs kept =
      outlet.sink.drain reader runs kept := by
  induction runs generalizing kept with
  | nil => rfl
  | cons run rest ih =>
    have hwrite : outlet.sink.write (reader.withBlockSize blockSize) run kept =
        outlet.sink.write reader run kept := rfl
    simp only [Sink.drain, hwrite, ih]

/-- Runs can be handed out on a device. -/
theorem feasible_drain (runs : List Run) (state : σ) :
    Feasible fun reader => leave reader (outlet.sink.drain reader runs (state, reader.blockSize)) := by
  induction runs generalizing state with
  | nil => exact Observable.const (state, pure 0)
  | cons run rest ih =>
    have hwrite : Feasible (outlet.write run state).answer := ⟨_, fun _ => rfl⟩
    refine hwrite.byAnswer fun answer => ?_
    -- The sink goes on with the reader that it was given first, in the size that it has set.
    have hsink : ∀ reader, ((outlet.write run state).answer reader).1 = answer →
        outlet.sink.write reader run (state, reader.blockSize) =
          ((answer.1, ((outlet.write run state).answer reader).2.blockSize), answer.2) := by
      rintro reader rfl
      rfl
    rcases answer with ⟨after, fault | _⟩
    · refine ⟨_, Observable.const (countRun run (after, .fail fault)), fun reader hanswer => ?_⟩
      rw [Sink.drain_of_refused rest (hsink reader hanswer), (outlet.write run state).left_eq reader]
      rfl
    · refine ⟨_, (ih after).map (countRun run), fun reader hanswer => ?_⟩
      rw [Sink.drain_of_taken rest (hsink reader hanswer), (outlet.write run state).left_eq reader,
        drain_withBlockSize]
      rfl

variable {outlet} in
/-- An outlet that hands the device back leaves no other size behind, however many runs it takes. -/
theorem Keeps.drain (h : outlet.Keeps) (reader : BlockReader) (runs : List Run) (kept : σ × Nat) :
    (outlet.sink.drain reader runs kept).1.2 = kept.2 := by
  induction runs generalizing kept with
  | nil => rfl
  | cons run rest ih =>
    have hsize : (outlet.sink.write reader run kept).1.2 = kept.2 :=
      congrArg BlockReader.blockSize (h run kept.1 (reader.withBlockSize kept.2))
    rcases hwrite : outlet.sink.write reader run kept with ⟨after, fault | _⟩
    · rw [hwrite] at hsize
      rw [Sink.drain_of_refused rest hwrite]
      exact hsize
    · rw [hwrite] at hsize
      rw [Sink.drain_of_taken rest hwrite]
      exact (ih after).trans hsize

variable {outlet} in
theorem Keeps.exportUsed (h : outlet.Keeps) (reader : BlockReader) (sb : Superblock)
    (groups : List Group) (mode : Mode) (kept : σ × Nat) :
    (outlet.sink.exportUsed reader sb groups mode kept).1.2 = kept.2 := by
  cases hplan : (usedRuns reader sb groups mode).outcome with
  | error fault => rw [Sink.exportUsed_of_error rfl hplan]
  | ok runs =>
    rw [Sink.exportUsed_of_ok rfl hplan]
    exact h.drain reader runs kept

theorem feasible_exportUsed (sb : Superblock) (groups : List Group) (mode : Mode) (state : σ) :
    Feasible fun reader =>
      leave reader (outlet.sink.exportUsed reader sb groups mode (state, reader.blockSize)) := by
  refine Feasible.byAnswer (observable_usedRuns sb mode groups) fun plan => ?_
  cases hplan : plan.outcome with
  | error fault =>
    exact ⟨_, Observable.const (state, ⟨plan.events, .error fault⟩),
      fun reader hread => congrArg (leave reader) (Sink.exportUsed_of_error hread hplan)⟩
  | ok runs =>
    exact ⟨_, (outlet.feasible_drain runs state).map (countPlan plan.events),
      fun reader hread => congrArg (leave reader) (Sink.exportUsed_of_ok hread hplan)⟩

end Outlet

/-! ## Copying into a sparse image -/

section Copying

open Sparse

theorem observable_copy (start count : Nat) :
    Observable fun reader => Writer.copy reader start count := by
  induction count using Nat.strongRecOn generalizing start with
  | ind count ih =>
    by_cases hcount : count = 0
    · refine (Observable.const ([], .ok ())).congr fun reader => ?_
      rw [Writer.copy, if_pos hcount]
    · have hless : count - piece copyBatch count < count := by
        have := piece_pos copyBatch hcount
        omega
      refine (Observable.readBlocks start (piece copyBatch count)).byAnswer fun outcome => ?_
      cases outcome with
      | error fault =>
        refine ⟨_, .const ([], .error fault), fun reader hread => ?_⟩
        rw [Writer.copy, if_neg hcount, hread]
      | ok data =>
        refine ⟨_, (ih _ hless (start + piece copyBatch count)).map fun copied =>
          (data ++ copied.1, copied.2), fun reader hread => ?_⟩
        rw [Writer.copy, if_neg hcount, hread]

theorem observable_addRaw (start count : Nat) (writer : Writer) :
    Observable fun reader => Writer.addRaw reader start count writer := by
  induction count using Nat.strongRecOn generalizing start writer with
  | ind count ih =>
    by_cases hcount : count = 0
    · refine (Observable.const (writer, .ok ())).congr fun reader => ?_
      rw [Writer.addRaw, if_pos hcount]
    · have hless : count - piece writer.limit count < count := by
        have := piece_pos writer.limit hcount
        omega
      refine (observable_copy start (piece writer.limit count)).byAnswer fun copied => ?_
      rcases copied with ⟨contents, outcome⟩
      let grown : Writer :=
        { writer with chunks := writer.chunks.push (.raw (piece writer.limit count) contents) }
      cases outcome with
      | error fault =>
        refine ⟨_, .const (grown, .error fault), fun reader hcopy => ?_⟩
        rw [Writer.addRaw, if_neg hcount]
        dsimp only
        rw [hcopy]
      | ok _ =>
        refine ⟨_, ih _ hless (start + piece writer.limit count) grown, fun reader hcopy => ?_⟩
        rw [Writer.addRaw, if_neg hcount]
        dsimp only
        rw [hcopy]

/-- A writer of sparse images takes runs by reading them. -/
theorem observable_writeRun (run : Run) (writer : Writer) :
    Observable fun reader => Writer.sink.write reader run writer := by
  refine (observable_addRaw run.start run.length (writer.skipTo run.start)).byAnswer fun answer => ?_
  rcases answer with ⟨grown, fault | _⟩
  · refine ⟨_, .const (grown, .error fault), fun reader hraw => ?_⟩
    show Writer.writeRun reader run writer = _
    rw [Writer.writeRun, hraw]
  · refine ⟨_, .const ({ grown with nextBlock := run.start + run.length }, .ok ()),
      fun reader hraw => ?_⟩
    show Writer.writeRun reader run writer = _
    rw [Writer.writeRun, hraw]

end Copying

/-! ## Scans -/

section Scanning

variable (scan : Scan)

/-- The same scan of what a reader reads. -/
def Scan.on (reader : BlockReader) : Scan := { scan with image := reader.image }

theorem observable_step (cursor : Scan.Cursor) :
    Observable fun reader => (scan.on reader).step cursor := by
  rcases Nat.lt_or_ge cursor.position scan.limit with hmore | hend
  · refine (Observable.readRaw (cursor.position / scan.blockSize * scan.blockSize)
      scan.blockSize).byAnswer fun outcome => ?_
    cases outcome with
    | error fault =>
      exact ⟨_, .const (.failed fault), fun reader hread =>
        @Scan.step_of_unreadable (scan.on reader) cursor fault hmore hread⟩
    | ok data =>
      let found := Scan.probe scan.stride scan.stride_pos (cursor.position % scan.blockSize)
        (data.drop (cursor.position % scan.blockSize))
      exact ⟨_, .const (Scan.settle cursor (cursor.position / scan.blockSize)
        (scan.positionAfter cursor.position) found),
        fun reader hread => @Scan.step_of_read (scan.on reader) cursor data hmore hread⟩
  · exact (Observable.const (.ended cursor.release)).congr fun reader =>
      @Scan.step_of_le (scan.on reader) cursor hend

/-- What a step leads to, whatever the next one is about. -/
theorem Scan.seek_eq (cursor : Cursor) :
    scan.seek cursor =
      match scan.step cursor with
      | .failed fault => (some (.error fault), ⟨[], none⟩)
      | .ended hits => (hits.head?.map .ok, ⟨hits.tail, none⟩)
      | .moved [] next => scan.seek next
      | .moved (hit :: later) next => (some (.ok hit), ⟨later, some next⟩) := by
  rw [seek]
  split
  · rename_i hstep
    rw [hstep]
  · rename_i hstep
    rw [hstep]
  · rename_i hits next hstep
    cases hits with
    | nil =>
      show scan.seek next = _
      rw [hstep]
    | cons hit later =>
      show (some (Except.ok hit), Pending.mk later (some next)) = _
      rw [hstep]

theorem observable_seek (cursor : Scan.Cursor) :
    Observable fun reader => (scan.on reader).seek cursor := by
  induction hleft : scan.limit - cursor.position using Nat.strongRecOn generalizing cursor with
  | ind left ih =>
    refine (observable_step scan cursor).byAnswer fun step => ?_
    rcases step with hits | fault | ⟨_ | ⟨hit, later⟩, next⟩
    · refine ⟨_, .const (hits.head?.map .ok, ⟨hits.tail, none⟩), fun reader hstep => ?_⟩
      rw [Scan.seek_eq, hstep]
    · refine ⟨_, .const (some (.error fault), ⟨[], none⟩), fun reader hstep => ?_⟩
      rw [Scan.seek_eq, hstep]
    · by_cases hless : scan.limit - next.position < left
      · refine ⟨_, ih _ hless next rfl, fun reader hstep => ?_⟩
        rw [Scan.seek_eq, hstep]
      · -- No reader makes a scan go on to where it has already been.
        refine ⟨_, .const (none, .first), fun reader hstep => absurd ?_ hless⟩
        have hmoved : (scan.on reader).limit - next.position < scan.limit - cursor.position :=
          Scan.step_moved hstep
        exact hleft ▸ hmoved
    · refine ⟨_, .const (some (.ok hit), ⟨later, some next⟩), fun reader hstep => ?_⟩
      rw [Scan.seek_eq, hstep]

theorem observable_next (pending : Scan.Pending) :
    Observable fun reader => (scan.on reader).next pending := by
  obtain ⟨queue, cursor⟩ := pending
  cases queue with
  | cons hit hits => exact .const _
  | nil =>
    cases cursor with
    | none => exact .const _
    | some cursor => exact observable_seek scan cursor

/-- A scan can be continued wherever it stands, item by item. -/
theorem observable_takeFrom (count : Nat) (pending : Scan.Pending) :
    Observable fun reader => (scan.on reader).takeFrom count pending := by
  induction count generalizing pending with
  | zero => exact .const []
  | succ count ih =>
    refine (observable_next scan pending).byAnswer fun answer => ?_
    rcases answer with ⟨_ | item, rest⟩
    · refine ⟨_, .const [], fun reader hnext => ?_⟩
      rw [Scan.takeFrom, hnext]
    · refine ⟨_, (ih rest).map (item :: ·), fun reader hnext => ?_⟩
      rw [Scan.takeFrom, hnext]

end Scanning

/-! ## Questions -/

/-- What can be asked of an opened filesystem, and the type of the answer. -/
inductive Inquiry : Type → Type 1
  /-- A block, or a sector of it. -/
  | read (block : Nat) (sector : Option Nat) : Inquiry (Except Fault Bytes)
  /-- A scan that is dropped after `count` items. -/
  | scan (stride : Option Nat) (count : Nat) : Inquiry (Traced (List (Except Fault ScanHit)))
  /-- An inode. -/
  | inode (ino : Nat) : Inquiry (Traced Inode)
  /-- The runs of used blocks. -/
  | exportTo {σ : Type} (outlet : Outlet σ) (state : σ) : Inquiry (σ × Traced Nat)
  /-- The used blocks as a sparse image. -/
  | exportSparse (destination : String) : Inquiry (Bytes × Traced Nat)

/-- No outlet that takes part counts blocks in another size when it is done. -/
def Inquiry.Keeps {α : Type} : Inquiry α → Prop
  | .exportTo outlet _ => outlet.Keeps
  | _ => True

namespace Volume

variable {α : Type} (volume : Volume)

/-- The filesystem behind another reader. -/
def withReader (reader : BlockReader) : Volume := { volume with reader }

/-- What the library answers where a device counts blocks like `reader`, and the reader that is left. -/
def reply (inquiry : Inquiry α) (reader : BlockReader) : α × BlockReader :=
  match inquiry with
  | .read block sector => ((volume.withReader reader).read block sector, reader)
  | .scan stride count =>
    ((do
      let scan ← (volume.withReader reader).scan stride
      pure (scan.take count)), reader)
  | .inode ino => ((volume.withReader reader).fetchInode ino, reader)
  | .exportTo outlet state =>
    Outlet.leave reader ((volume.withReader reader).exportTo outlet.sink (state, reader.blockSize))
  | .exportSparse destination => ((volume.withReader reader).exportSparse destination, reader)

variable {block sector : Nat}

/-- A sector that does not end inside its block is cut off. -/
theorem read_sector_of_lt (h : volume.sb.blockSize < (sector + 1) * volume.sb.sectorSize) :
    volume.read block (some sector) =
      .error (.truncated "block" ((sector + 1) * volume.sb.sectorSize) volume.sb.blockSize) := by
  rw [Nat.succ_mul] at h ⊢
  exact if_pos h

/-- Any other is read where words have its place. -/
theorem read_sector_of_le (h : (sector + 1) * volume.sb.sectorSize ≤ volume.sb.blockSize) :
    volume.read block (some sector) =
      volume.reader.readRaw (wrap (block * volume.sb.blockSize + sector * volume.sb.sectorSize))
        volume.sb.sectorSize := by
  rw [Nat.succ_mul] at h
  exact if_neg (Nat.not_lt.2 h)

theorem observable_read (block : Nat) (sector : Option Nat) :
    Observable fun reader => (volume.withReader reader).read block sector := by
  cases sector with
  | none => exact observable_block block
  | some sector =>
    rcases Nat.lt_or_ge volume.sb.blockSize ((sector + 1) * volume.sb.sectorSize) with hcut | hfits
    · exact (Observable.const (Except.error (.truncated "block"
        ((sector + 1) * volume.sb.sectorSize) volume.sb.blockSize))).congr fun reader =>
          (volume.withReader reader).read_sector_of_lt hcut
    · exact (Observable.readRaw
        (wrap (block * volume.sb.blockSize + sector * volume.sb.sectorSize))
        volume.sb.sectorSize).congr fun reader =>
          (volume.withReader reader).read_sector_of_le hfits

theorem observable_scan (stride : Option Nat) (count : Nat) :
    Observable fun reader => (do
      let scan ← (volume.withReader reader).scan stride
      pure (scan.take count) : Traced (List (Except Fault ScanHit))) := by
  refine Observable.size.byAnswer fun size => ?_
  let scan := Scan.ofBlocks (.zeros 0) volume.sb.blockSize (size / volume.sb.blockSize)
    (volume.scanStride stride)
  have htake : Observable fun reader => (scan.on reader).take count :=
    observable_takeFrom scan count .first
  refine ⟨_, .bindTraced (.const (Scan.start (.zeros 0) volume.sb.blockSize
    (size / volume.sb.blockSize) (volume.scanStride stride))) fun _ => htake.map pure,
    fun reader hsize => ?_⟩
  subst hsize
  rfl

theorem observable_fetchInode (ino : Nat) :
    Observable fun reader => (volume.withReader reader).fetchInode ino := by
  show Observable fun reader => Inode.fetch reader volume.sb ino
  unfold Inode.fetch
  refine .ite (.const _) (.bindTraced (.const _) fun _ => ?_)
  refine (Observable.readRaw _ _).lift.bindTraced fun data => ?_
  exact .const _

theorem observable_exportSparse (destination : String) :
    Observable fun reader => (volume.withReader reader).exportSparse destination := by
  cases hcreate : Sparse.Writer.create volume.sb.blockSize volume.sb.blocks with
  | error fault =>
    refine (Observable.const ([], .fail fault)).congr fun reader => ?_
    rw [exportSparse, withReader, hcreate]
  | ok writer =>
    refine (observable_exportUsed observable_writeRun volume.sb volume.groups volume.mode
      writer).byAnswer fun answer => ?_
    rcases answer with ⟨written, events, fault | used⟩
    · refine ⟨_, .const (written.unfinishedFile, ⟨events, .error fault⟩), fun reader hrun => ?_⟩
      rw [exportSparse, withReader, hcreate]
      dsimp only
      rw [exportTo, hrun]
    · let finished := written.finish
      let event : Event := .note .info ("exported " ++ decimal used ++ " used blocks as "
        ++ decimal finished.chunks.size ++ " chunks to " ++ destination)
      refine ⟨_, .const (finished.finishedFile, ⟨events ++ [event], .ok used⟩),
        fun reader hrun => ?_⟩
      rw [exportSparse, withReader, hcreate]
      dsimp only
      rw [exportTo, hrun]

/-- Every question can be asked of a device. -/
theorem feasible_reply (inquiry : Inquiry α) : Feasible (volume.reply inquiry) := by
  cases inquiry with
  | read block sector => exact volume.observable_read block sector
  | scan stride count => exact volume.observable_scan stride count
  | inode ino => exact volume.observable_fetchInode ino
  | exportTo outlet state => exact outlet.feasible_exportUsed volume.sb volume.groups volume.mode state
  | exportSparse destination => exact volume.observable_exportSparse destination

/-- A question in which every outlet keeps the size of a block leaves the reader as it was. -/
theorem reply_of_keeps {inquiry : Inquiry α} (h : inquiry.Keeps) (reader : BlockReader) :
    (volume.reply inquiry reader).2 = reader := by
  cases inquiry with
  | read | scan | inode | exportSparse => rfl
  | exportTo outlet state =>
    have hsize := Outlet.Keeps.exportUsed h reader volume.sb volume.groups volume.mode
      (state, reader.blockSize)
    show reader.withBlockSize _ = reader
    rw [show ((volume.withReader reader).exportTo outlet.sink (state, reader.blockSize)).1.2 =
      reader.blockSize from hsize]
    rfl

/-- A question, and accesses to a device that find out what the library answers. -/
structure Asked (α : Type) where
  inquiry : Inquiry α
  reading : Reading α
  faithful : ∀ reader, reading.answer reader = volume.reply inquiry reader

theorem exists_asked (inquiry : Inquiry α) : ∃ asked : volume.Asked α, asked.inquiry = inquiry := by
  obtain ⟨reading, hreading⟩ := volume.feasible_reply inquiry
  exact ⟨⟨inquiry, reading, hreading⟩, rfl⟩

end Volume

end DiskScope.Xfs
