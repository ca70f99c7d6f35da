/-
  DiskScope/Proofs/Drive.lean --- reads of a device that has a position.

  WHAT THIS FILE IS FOR.  The library answers from an image that nothing changes.  A device is
  not like that: it stands somewhere, every access moves it, and one that fails leaves it
  wherever it happened to stop.  Whoever holds it can moreover count its blocks in another
  size, and whoever comes next finds that size.  This file says what has to hold for the
  answers to be those of the image all the same.

  A `Reading` is a computation that accesses a device, each access chosen by what the earlier
  ones have answered.  There are four accesses, and no other way to get at a device.
  `Reading.answer` takes the answers from the image, and `Reading.run` from a `Drive`, one
  access after the other.

  WHY POSITIONS DO NOT MATTER.  Every read begins by seeking, so no read depends on where the
  drive stood (`Drive.readRaw_eq`).  By induction on a reading, no answer does; what is left
  behind is the same device at another position, with its blocks counted as the reading has
  them counted at its end (`Reading.run_eq`).

  WHAT CAN BE READ.  A function of a reader is `Observable` if some reading computes it and
  leaves the device as it was.  Such functions compose, so it need not be said which accesses
  a function makes: that there are some follows from how it is put together.

  MAIN STATEMENTS.

      Drive.readRaw_eq      one access
      Reading.run_eq        one reading
      Drive.reader_after    any number of them
      Observable.byAnswer   observable functions compose
-/
import DiskScope.Image
import Mathlib.Tactic.Choose

set_option autoImplicit false

namespace DiskScope

variable {α β : Type}

/-! ## Drives -/

/-- A device and the position at which it stands. -/
structure Drive where
  reader : BlockReader
  position : Nat
  /-- Where a read of so many bytes from a position stops if it meets the end; nothing is promised. -/
  stop : (position len : Nat) → Nat
  /-- The end of a device can be sought. -/
  end_reached : reader.image.reaches reader.image.size = true

namespace Drive

/-- Goes to a position, if that can be sought. -/
def seek (drive : Drive) (target : Nat) : Except Fault Unit × Drive :=
  if drive.reader.image.reaches target then (.ok (), { drive with position := target })
  else (.error .outOfReach, drive)

/-- Reads `len` bytes and goes behind them. -/
def readExact (drive : Drive) (len : Nat) : Except Fault Bytes × Drive :=
  if len = 0 then (.ok [], drive)
  else if drive.position + len ≤ drive.reader.image.size then
    (.ok (drive.reader.image.bytesFrom drive.position len),
      { drive with position := drive.position + len })
  else (.error .shortRead, { drive with position := drive.stop drive.position len })

/-- Reads `len` bytes from a byte offset on. -/
def readRaw (drive : Drive) (offset len : Nat) : Except Fault Bytes × Drive :=
  match drive.seek offset with
  | (.error fault, there) => (.error fault, there)
  | (.ok (), there) => there.readExact len

/-- Reads `count` whole blocks from block `block` on. -/
def readBlocks (drive : Drive) (block count : Nat) : Except Fault Bytes × Drive :=
  drive.readRaw (drive.reader.span block) (drive.reader.span count)

/-- The number of bytes of the device, which is the position of its end. -/
def size (drive : Drive) : Nat × Drive :=
  (drive.reader.image.size, { drive with position := drive.reader.image.size })

/-- The device with its blocks counted in another size. -/
def withBlockSize (drive : Drive) (blockSize : Nat) : Drive :=
  { drive with
    reader := drive.reader.withBlockSize blockSize
    end_reached := drive.end_reached }

/-- What lies in front of the end can be sought as well. -/
theorem reaches_of_le (drive : Drive) {offset : Nat} (h : offset ≤ drive.reader.image.size) :
    drive.reader.image.reaches offset = true := by
  have hend := drive.end_reached
  cases hlast : drive.reader.image.lastSought with
  | none => simp [Image.reaches, hlast]
  | some last =>
    simp only [Image.reaches, hlast, Option.all_some, decide_eq_true_eq] at hend ⊢
    omega

/-- A read answers what the image does, wherever the drive stood, and changes nothing but the
position. -/
theorem readRaw_eq (drive : Drive) (offset len : Nat) :
    (drive.readRaw offset len).1 = drive.reader.readRaw offset len ∧
      (drive.readRaw offset len).2.reader = drive.reader := by
  have hinside : offset ≤ drive.reader.image.size → drive.reader.image.reaches offset = true :=
    drive.reaches_of_le
  cases hreach : drive.reader.image.reaches offset with
  | false =>
    -- What cannot be sought lies behind the end, so the read is not inside.
    have hpast : ¬ offset + len ≤ drive.reader.image.size := fun hle => by
      rw [hinside (by omega)] at hreach
      cases hreach
    simp [readRaw, seek, BlockReader.readRaw, Image.read, hreach, hpast]
  | true =>
    by_cases hlen : len = 0
    · subst hlen
      simp [readRaw, seek, readExact, BlockReader.readRaw, Image.read, hreach, Image.bytesFrom]
    · by_cases hle : offset + len ≤ drive.reader.image.size
      · simp [readRaw, seek, readExact, BlockReader.readRaw, Image.read, hreach, hlen, hle]
      · simp [readRaw, seek, readExact, BlockReader.readRaw, Image.read, hreach, hlen, hle]

theorem readBlocks_eq (drive : Drive) (block count : Nat) :
    (drive.readBlocks block count).1 = drive.reader.readBlocks block count ∧
      (drive.readBlocks block count).2.reader = drive.reader :=
  drive.readRaw_eq _ _

end Drive

/-! ## Readings -/

/-- A computation that accesses a device. -/
inductive Reading (α : Type) where
  | done (answer : α)
  /-- Reads `len` bytes at a byte offset. -/
  | raw (offset len : Nat) (next : Except Fault Bytes → Reading α)
  /-- Reads `count` blocks. -/
  | blocks (block count : Nat) (next : Except Fault Bytes → Reading α)
  /-- Asks for the number of bytes. -/
  | size (next : Nat → Reading α)
  /-- Counts blocks in another size from here on. -/
  | resize (blockSize : Nat) (next : Reading α)

namespace Reading

/-- Goes on with the answer of `first`. -/
protected def bind (first : Reading α) (next : α → Reading β) : Reading β :=
  match first with
  | done answer => next answer
  | raw offset len rest => raw offset len fun outcome => (rest outcome).bind next
  | blocks block count rest => blocks block count fun outcome => (rest outcome).bind next
  | size rest => size fun size => (rest size).bind next
  | resize blockSize rest => resize blockSize (rest.bind next)

instance : Monad Reading where
  pure := done
  bind := Reading.bind

/-- What comes of it if every access is answered from the image, and the reader that is left. -/
def answer : Reading α → BlockReader → α × BlockReader
  | done answer, reader => (answer, reader)
  | raw offset len next, reader => (next (reader.readRaw offset len)).answer reader
  | blocks block count next, reader => (next (reader.readBlocks block count)).answer reader
  | size next, reader => (next reader.image.size).answer reader
  | resize blockSize next, reader => next.answer (reader.withBlockSize blockSize)

/-- What comes of it on a drive, and the drive afterwards. -/
def run : Reading α → Drive → α × Drive
  | done answer, drive => (answer, drive)
  | raw offset len next, drive =>
    let (outcome, after) := drive.readRaw offset len
    (next outcome).run after
  | blocks block count next, drive =>
    let (outcome, after) := drive.readBlocks block count
    (next outcome).run after
  | size next, drive =>
    let (bytes, after) := drive.size
    (next bytes).run after
  | resize blockSize next, drive => next.run (drive.withBlockSize blockSize)

@[simp] theorem answer_bind (first : Reading α) (next : α → Reading β) (reader : BlockReader) :
    (first >>= next).answer reader =
      (next (first.answer reader).1).answer (first.answer reader).2 := by
  show (first.bind next).answer reader = _
  induction first generalizing reader with
  | done answer => rfl
  | raw offset len rest ih => exact ih _ reader
  | blocks block count rest ih => exact ih _ reader
  | size rest ih => exact ih _ reader
  | resize blockSize rest ih => exact ih _

/-- A reading changes how blocks are counted, and nothing else. -/
theorem image_answer (reading : Reading α) (reader : BlockReader) :
    (reading.answer reader).2.image = reader.image := by
  induction reading generalizing reader with
  | done answer => rfl
  | raw offset len next ih => exact ih _ reader
  | blocks block count next ih => exact ih _ reader
  | size next ih => exact ih _ reader
  | resize blockSize next ih => exact ih _

theorem left_eq (reading : Reading α) (reader : BlockReader) :
    (reading.answer reader).2 = reader.withBlockSize (reading.answer reader).2.blockSize := by
  rw [BlockReader.withBlockSize, ← reading.image_answer reader]

/-- A reading answers what the image does, wherever the drive stood, and leaves the same device
behind, with blocks counted as it has left them. -/
theorem run_eq (reading : Reading α) (drive : Drive) :
    (reading.run drive).1 = (reading.answer drive.reader).1 ∧
      (reading.run drive).2.reader = (reading.answer drive.reader).2 := by
  induction reading generalizing drive with
  | done answer => exact ⟨rfl, rfl⟩
  | raw offset len next ih =>
    obtain ⟨houtcome, hreader⟩ := drive.readRaw_eq offset len
    have hrest := ih (drive.readRaw offset len).1 (drive.readRaw offset len).2
    rw [hreader] at hrest
    rw [answer, ← houtcome]
    exact hrest
  | blocks block count next ih =>
    obtain ⟨houtcome, hreader⟩ := drive.readBlocks_eq block count
    have hrest := ih (drive.readBlocks block count).1 (drive.readBlocks block count).2
    rw [hreader] at hrest
    rw [answer, ← houtcome]
    exact hrest
  | size next ih => exact ih drive.size.1 drive.size.2
  | resize blockSize next ih => exact ih (drive.withBlockSize blockSize)

end Reading

/-! ## One after the other -/

/-- The drive after any number of readings. -/
def Drive.after (drive : Drive) (readings : List (Σ α : Type, Reading α)) : Drive :=
  readings.foldl (fun drive reading => (reading.2.run drive).2) drive

/-- The reader that readings of an image leave, one after the other. -/
def BlockReader.after (reader : BlockReader) (readings : List (Σ α : Type, Reading α)) :
    BlockReader :=
  readings.foldl (fun reader reading => (reading.2.answer reader).2) reader

theorem Drive.reader_after (drive : Drive) (readings : List (Σ α : Type, Reading α)) :
    (drive.after readings).reader = drive.reader.after readings := by
  induction readings generalizing drive with
  | nil => rfl
  | cons reading readings ih =>
    refine (ih _).trans ?_
    rw [(reading.2.run_eq drive).2]
    rfl

theorem BlockReader.image_after (reader : BlockReader) (readings : List (Σ α : Type, Reading α)) :
    (reader.after readings).image = reader.image := by
  induction readings generalizing reader with
  | nil => rfl
  | cons reading readings ih => exact (ih _).trans (reading.2.image_answer reader)

/-! ## What can be read -/

/-- Some reading does this with a reader. -/
def Feasible (f : BlockReader → α × BlockReader) : Prop :=
  ∃ reading : Reading α, ∀ reader, reading.answer reader = f reader

/-- Some reading computes this, and leaves the reader as it was. -/
def Observable (f : BlockReader → α) : Prop := Feasible fun reader => (f reader, reader)

/-- Something that goes on from what `f` has answered, with the reader that `f` has left, can be done
if it can be done for each answer. -/
theorem Feasible.byAnswer {f : BlockReader → α × BlockReader} {h : BlockReader → β × BlockReader}
    (hf : Feasible f)
    (hg : ∀ a, ∃ g, Feasible g ∧ ∀ reader, (f reader).1 = a → h reader = g (f reader).2) :
    Feasible h := by
  obtain ⟨first, hfirst⟩ := hf
  choose rest hrest heq using hg
  choose next hnext using hrest
  refine ⟨first >>= next, fun reader => ?_⟩
  rw [Reading.answer_bind, hnext, hfirst, ← heq _ reader rfl]

theorem Feasible.map {f : BlockReader → α × BlockReader} (hf : Feasible f) (g : α → β) :
    Feasible fun reader => (g (f reader).1, (f reader).2) :=
  hf.byAnswer fun a =>
    ⟨fun reader => (g a, reader), ⟨.done (g a), fun _ => rfl⟩, fun reader ha => by rw [ha]⟩

namespace Observable

theorem const (a : α) : Observable fun _ => a :=
  ⟨.done a, fun _ => rfl⟩

theorem readRaw (offset len : Nat) : Observable fun reader => reader.readRaw offset len :=
  ⟨.raw offset len .done, fun _ => rfl⟩

theorem readBlocks (block count : Nat) :
    Observable fun reader => reader.readBlocks block count :=
  ⟨.blocks block count .done, fun _ => rfl⟩

theorem size : Observable fun reader => reader.image.size :=
  ⟨.size .done, fun _ => rfl⟩

variable {f : BlockReader → α}

/-- Something that goes on from what `f` has answered can be computed if it can be for each answer. -/
theorem byAnswer {h : BlockReader → β} (hf : Observable f)
    (hg : ∀ a, ∃ g, Observable g ∧ ∀ reader, f reader = a → h reader = g reader) :
    Observable h := by
  refine Feasible.byAnswer hf fun a => ?_
  obtain ⟨g, hobservable, heq⟩ := hg a
  exact ⟨fun reader => (g reader, reader), hobservable, fun reader ha => by rw [heq reader ha]⟩

theorem congr {g : BlockReader → α} (hf : Observable f) (h : ∀ reader, g reader = f reader) :
    Observable g :=
  funext h ▸ hf

theorem map (hf : Observable f) (g : α → β) : Observable fun reader => g (f reader) :=
  Feasible.map hf g

theorem ite {condition : Prop} [Decidable condition] {g : BlockReader → α} (hf : Observable f)
    (hg : Observable g) : Observable fun reader => if condition then f reader else g reader := by
  split
  · exact hf
  · exact hg

/-- Going on with an answer, unless there is none. -/
theorem bindExcept {f : BlockReader → Except Fault α} {g : α → BlockReader → Except Fault β}
    (hf : Observable f) (hg : ∀ a, Observable (g a)) :
    Observable fun reader => f reader >>= fun a => g a reader := by
  refine hf.byAnswer fun outcome => ?_
  cases outcome with
  | error fault =>
    exact ⟨_, const (Except.error fault), fun reader hread => by rw [hread]; rfl⟩
  | ok a => exact ⟨_, hg a, fun reader hread => by rw [hread]; rfl⟩

/-- Going on with an answer and with the trace. -/
theorem bindTraced {f : BlockReader → Traced α} {g : α → BlockReader → Traced β}
    (hf : Observable f) (hg : ∀ a, Observable (g a)) :
    Observable fun reader => f reader >>= fun a => g a reader := by
  refine hf.byAnswer fun run => ?_
  cases hrun : run.outcome with
  | error fault =>
    refine ⟨_, const (Traced.mk run.events (.error fault)), fun reader hread => ?_⟩
    rw [hread, Traced.bind_of_error hrun]
  | ok a =>
    refine ⟨_, (hg a).map fun rest => Traced.mk (run.events ++ rest.events) rest.outcome,
      fun reader hread => ?_⟩
    rw [hread, Traced.bind_of_ok hrun]

/-- Reading what may fail, in a run with a trace. -/
theorem lift {f : BlockReader → Except Fault α} (hf : Observable f) :
    Observable fun reader => (liftM (f reader) : Traced α) :=
  hf.map Traced.ofExcept

end Observable

end DiskScope
