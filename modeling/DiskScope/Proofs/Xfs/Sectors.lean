/-
  DiskScope/Proofs/Xfs/Sectors.lean --- sectors are parts of their blocks.

  WHAT THIS FILE IS FOR.  A block is read by its number, a sector of it at a byte offset.  These
  are two ways to the same bytes, and this file says that they agree: for every geometry that
  a filesystem can be opened with, also where sectors do not fill a block, and at every end
  that an image can have.

  WHAT CAME BEFORE.  The image answers alike whatever it was asked before, but a device has been
  moved by it.  So the statement is about a drive with a history: any blocks, sectors, inodes,
  scans and exports, in any order, that went well, failed or were dropped on the way.

  WHAT DOES NOT LAST.  A sink that is lent the device can have blocks counted in another size, and
  nothing sets it back.  Blocks are other blocks from then on (`smallImage_disagrees`), while
  sectors are found as before, since the superblock says where.

  MAIN STATEMENTS.

      read_sectors       the answers of the library
      lasting            what a history leaves of them
      sectors_agree      both
-/
import DiskScope.Proofs.Bytes.Pieces
import DiskScope.Proofs.Sparse.Export
import DiskScope.Proofs.Xfs.Inquiries
import DiskScope.Proofs.Xfs.LoadedGroup

set_option autoImplicit false

namespace DiskScope.Xfs

namespace Volume

/-! ## The answers of the library -/

/-- What sectors have to do with blocks and with the image, where `read` answers for either. -/
structure SectorReads (sb : Superblock) (image : Image)
    (read : (block : Nat) → (sector : Option Nat) → Except Fault Bytes) : Prop where
  /-- A sector is refused as cut off exactly if it does not end inside its block. -/
  truncated_iff : ∀ block sector : Nat,
    read block (some sector) =
        .error (.truncated "block" ((sector + 1) * sb.sectorSize) sb.blockSize) ↔
      sb.blockSize < (sector + 1) * sb.sectorSize
  /-- Any other is what the image has at its place, if a word is long enough for that. -/
  ok_iff : ∀ (block sector : Nat) (data : Bytes), (sector + 1) * sb.sectorSize ≤ sb.blockSize →
    block * sb.blockSize + sector * sb.sectorSize < 2 ^ 64 →
      (read block (some sector) = .ok data ↔
        block * sb.blockSize + sector * sb.sectorSize + sb.sectorSize ≤ image.size ∧
          data = image.bytesFrom (block * sb.blockSize + sector * sb.sectorSize) sb.sectorSize)
  /-- It is a failed access exactly if not all of that is inside the image. -/
  io_iff : ∀ block sector : Nat, (sector + 1) * sb.sectorSize ≤ sb.blockSize →
    block * sb.blockSize + sector * sb.sectorSize < 2 ^ 64 →
      ((∃ fault, read block (some sector) = .error fault ∧ fault.isIo = true) ↔
        image.size < block * sb.blockSize + sector * sb.sectorSize + sb.sectorSize)
  /-- Where the block can be read, it is a part of that. -/
  slice_eq : ∀ (block sector : Nat) (data : Bytes), read block none = .ok data →
    (sector + 1) * sb.sectorSize ≤ sb.blockSize →
      read block (some sector) = .ok (data.slice (sector * sb.sectorSize) sb.sectorSize)
  /-- Sectors that fill the block are all of it. -/
  flatten_eq : ∀ (block : Nat) (data : Bytes), read block none = .ok data →
    sb.sectorSize ∣ sb.blockSize →
      ∃ sectors, (List.range (sb.blockSize / sb.sectorSize)).mapM
          (fun sector => read block (some sector)) = .ok sectors ∧ sectors.flatten = data

variable {image : Image} {mode : Mode} {volume : Volume} {block sector : Nat} {data : Bytes}

theorem read_block_eq_ok_iff (hopen : (detect image mode).outcome = .ok volume) :
    volume.read block none = .ok data ↔
      wrap (block * volume.sb.blockSize) + volume.sb.blockSize ≤ image.size ∧
        data = image.bytesFrom (wrap (block * volume.sb.blockSize)) volume.sb.blockSize := by
  show volume.reader.block block = .ok data ↔ _
  rw [(detect_ok hopen).2.1, BlockReader.block_eq_read (blockSize_word hopen)]
  exact Image.read_eq_ok_iff_of_pos (blockSize_pos hopen)

theorem read_sector_eq_read (hopen : (detect image mode).outcome = .ok volume)
    (h : (sector + 1) * volume.sb.sectorSize ≤ volume.sb.blockSize) :
    volume.read block (some sector) =
      image.read (wrap (block * volume.sb.blockSize + sector * volume.sb.sectorSize))
        volume.sb.sectorSize := by
  rw [volume.read_sector_of_le h, (detect_ok hopen).2.1, BlockReader.readRaw]

/-- A sector of a block that can be read is a part of it. -/
theorem read_sector_of_block (hopen : (detect image mode).outcome = .ok volume)
    (hblock : volume.read block none = .ok data)
    (h : (sector + 1) * volume.sb.sectorSize ≤ volume.sb.blockSize) :
    volume.read block (some sector) =
      .ok (data.slice (sector * volume.sb.sectorSize) volume.sb.sectorSize) := by
  obtain ⟨hinside, rfl⟩ := (read_block_eq_ok_iff hopen).1 hblock
  have hsize := image.size_lt
  rw [read_sector_eq_read hopen h, Image.read_eq_ok_iff_of_pos (sectorSize_pos hopen)]
  rw [Nat.succ_mul] at h
  -- The sector begins inside the block, so its place is a word if that of the block is.
  rw [wrap_add (by omega)]
  exact ⟨by omega, image.slice_bytesFrom h⟩

/-- Sectors read in a row are the block as far as they go. -/
theorem mapM_read_sectors (hopen : (detect image mode).outcome = .ok volume)
    (hblock : volume.read block none = .ok data) {count : Nat}
    (h : count * volume.sb.sectorSize ≤ volume.sb.blockSize) :
    (List.range count).mapM (fun sector => volume.read block (some sector)) =
      .ok (Bytes.cut volume.sb.sectorSize count data) := by
  rw [Bytes.cut_eq_map]
  induction count with
  | zero => rfl
  | succ count ih =>
    have hbefore : count * volume.sb.sectorSize ≤ volume.sb.blockSize :=
      Nat.le_trans (Nat.mul_le_mul_right _ (Nat.le_succ count)) h
    rw [List.range_succ, List.mapM_append, ih hbefore, List.mapM_cons, List.mapM_nil,
      read_sector_of_block hopen hblock h, List.map_append]
    rfl

theorem read_sectors (hopen : (detect image mode).outcome = .ok volume) :
    SectorReads volume.sb image volume.read where
  truncated_iff := fun block sector => by
    refine ⟨fun heq => ?_, volume.read_sector_of_lt⟩
    by_contra hnot
    rw [read_sector_eq_read hopen (Nat.not_lt.1 hnot)] at heq
    cases Image.isIo_of_read heq
  ok_iff := fun block sector data h hword => by
    rw [read_sector_eq_read hopen h, wrap_of_lt hword,
      Image.read_eq_ok_iff_of_pos (sectorSize_pos hopen)]
  io_iff := fun block sector h hword => by
    rw [read_sector_eq_read hopen h, wrap_of_lt hword]
    constructor
    · rintro ⟨fault, hfault, -⟩
      exact (Image.read_eq_error_iff.1 hfault).1
    · intro hsize
      obtain ⟨fault, hfault⟩ := Image.exists_read_eq_error (sectorSize_pos hopen) hsize
      exact ⟨fault, hfault, Image.isIo_of_read hfault⟩
  slice_eq := fun block sector data hblock h => read_sector_of_block hopen hblock h
  flatten_eq := fun block data hblock hdvd => by
    have hcount := Nat.div_mul_cancel hdvd
    obtain ⟨-, hdata⟩ := (read_block_eq_ok_iff hopen).1 hblock
    refine ⟨_, mapM_read_sectors hopen hblock (Nat.le_of_eq hcount), ?_⟩
    rw [Bytes.flatten_cut, hcount, List.take_of_length_le (by rw [hdata, Image.length_bytesFrom])]

/-! ## After any history -/

section Histories

variable {α : Type} (volume : Volume) (drive : Drive)
  (history : List (Σ α : Type, volume.Asked α))

/-- What has been asked. -/
def inquiries : List (Σ α : Type, Inquiry α) :=
  history.map fun asked => ⟨asked.1, asked.2.inquiry⟩

theorem exists_history (asked : List (Σ α : Type, Inquiry α)) :
    ∃ history, volume.inquiries history = asked := by
  induction asked with
  | nil => exact ⟨[], rfl⟩
  | cons first rest ih =>
    obtain ⟨history, rfl⟩ := ih
    obtain ⟨α, inquiry⟩ := first
    obtain ⟨first, rfl⟩ := volume.exists_asked inquiry
    exact ⟨⟨α, first⟩ :: history, rfl⟩

/-- The drive once questions have been asked. -/
def after : Drive :=
  drive.after (history.map fun asked => ⟨asked.1, asked.2.reading⟩)

/-- What a question is answered after others. -/
def answerAfter (asked : volume.Asked α) : α :=
  (asked.reading.run (volume.after drive history)).1

/-- What lasts of the answers, whatever has been asked before. -/
structure Lasting : Prop where
  /-- The image still answers, in the size that blocks are counted in by now. -/
  answer_eq : ∀ (α : Type) (asked : volume.Asked α), volume.answerAfter drive history asked =
    (volume.reply asked.inquiry
      (volume.reader.withBlockSize (volume.after drive history).reader.blockSize)).1
  /-- To sectors that size does not matter. -/
  sector_eq : ∀ (asked : volume.Asked (Except Fault Bytes)) (block sector : Nat),
    asked.inquiry = .read block (some sector) →
      volume.answerAfter drive history asked = volume.read block (some sector)
  /-- If it is that of the filesystem, nothing has changed. -/
  unchanged : (volume.after drive history).reader.blockSize = volume.sb.blockSize →
    ∀ (α : Type) (asked : volume.Asked α),
      volume.answerAfter drive history asked = (volume.reply asked.inquiry volume.reader).1
  /-- And it is unless an outlet has set it. -/
  size_eq : (∀ asked ∈ history, asked.2.inquiry.Keeps) →
    (volume.after drive history).reader.blockSize = volume.sb.blockSize

variable {volume drive history}

/-- Whatever has been asked before, a question is answered from the image. -/
theorem answerAfter_eq (hdrive : drive.reader = volume.reader) (asked : volume.Asked α) :
    volume.answerAfter drive history asked =
      (volume.reply asked.inquiry
        (volume.reader.withBlockSize (volume.after drive history).reader.blockSize)).1 := by
  have himage : (volume.after drive history).reader.image = volume.reader.image := by
    rw [after, Drive.reader_after, BlockReader.image_after, hdrive]
  rw [answerAfter, (asked.reading.run_eq _).1, asked.faithful, BlockReader.withBlockSize, ← himage]

/-- Questions that keep the size of a block leave the device as it was. -/
theorem reader_after (hkeeps : ∀ asked ∈ history, asked.2.inquiry.Keeps) :
    (volume.after drive history).reader = drive.reader := by
  rw [after, Drive.reader_after]
  generalize drive.reader = reader
  induction history with
  | nil => rfl
  | cons asked rest ih =>
    obtain ⟨hasked, hrest⟩ := List.forall_mem_cons.1 hkeeps
    have hleft : (asked.2.reading.answer reader).2 = reader := by
      rw [asked.2.faithful, volume.reply_of_keeps hasked]
    refine Eq.trans ?_ (ih hrest)
    show BlockReader.after (asked.2.reading.answer reader).2 _ = _
    rw [hleft]

theorem lasting (hopen : (detect image mode).outcome = .ok volume)
    (hdrive : drive.reader = volume.reader) (history : List (Σ α : Type, volume.Asked α)) :
    volume.Lasting drive history := by
  have hsize : volume.reader.blockSize = volume.sb.blockSize := by rw [(detect_ok hopen).2.1]
  refine ⟨fun α asked => answerAfter_eq hdrive asked, ?_, ?_, ?_⟩
  · intro asked block sector hasked
    rw [answerAfter_eq hdrive asked, hasked]
    -- The size of the reader is not looked at.
    rfl
  · intro hleft α asked
    rw [answerAfter_eq hdrive asked, hleft, ← hsize]
    rfl
  · intro hkeeps
    rw [reader_after hkeeps, hdrive, hsize]

end Histories

/-- Sectors are parts of their blocks, and are read alike whatever a drive has been through.  So is
everything else, unless a sink has left another size of blocks behind. -/
theorem sectors_agree (hopen : (detect image mode).outcome = .ok volume) :
    SectorReads volume.sb image volume.read ∧
      (∀ asked, ∃ history, volume.inquiries history = asked) ∧
      ∀ drive : Drive, drive.reader = volume.reader →
        ∀ history : List (Σ α : Type, volume.Asked α), volume.Lasting drive history :=
  ⟨read_sectors hopen, volume.exists_history, fun _ hdrive history => lasting hopen hdrive history⟩

/-- A drive with the small image in it, which stands somewhere behind the first block. -/
def smallDrive : Drive where
  reader := ⟨smallImage, 512⟩
  position := 777
  stop := fun position len => position + len / 2
  end_reached := rfl

theorem smallDrive_reader (hopen : (detect smallImage mode).outcome = .ok volume)
    (hblock : volume.sb.blockSize = 512) : smallDrive.reader = volume.reader := by
  rw [(detect_ok hopen).2.1, hblock]
  rfl

/-- An outlet that only remembers the runs. -/
def listing : Outlet (List Run) where
  write := fun run runs => .done (runs ++ [run], .ok ())

/-- A read past the end, a scan that is dropped after its second item, an inode, an export that only
lists the runs, and one that copies them. -/
def smallHistory : List (Σ α : Type, Inquiry α) :=
  [⟨_, .read 9 none⟩, ⟨_, .scan none 2⟩, ⟨_, .inode 64⟩, ⟨_, .exportTo listing []⟩,
    ⟨_, .exportSparse "copy"⟩]

/-- With this history, blocks and sectors of the small image are read as before. -/
theorem smallImage_agrees :
    ∃ volume, (detect smallImage .strict).outcome = .ok volume ∧
      volume.sb.blockSize = 512 ∧ volume.sb.sectorSize = 256 ∧
      smallDrive.reader = volume.reader ∧
      ∃ history : List (Σ α : Type, volume.Asked α), volume.inquiries history = smallHistory ∧
        ∀ (asked : volume.Asked (Except Fault Bytes)) (block : Nat) (sector : Option Nat),
          asked.inquiry = .read block sector →
            volume.answerAfter smallDrive history asked = volume.read block sector := by
  have hopens : ((detect smallImage .strict).outcome.toOption.map fun volume =>
      (volume.sb.blockSize, volume.sb.sectorSize)) = some (512, 256) := by
    decide +kernel
  obtain ⟨volume, hopen, hfacts⟩ := Except.exists_of_toOption_map hopens
  obtain ⟨hblock, hsector⟩ := Prod.mk.inj hfacts
  have hdrive := smallDrive_reader hopen hblock
  obtain ⟨history, hhistory⟩ := volume.exists_history smallHistory
  have hlasting := (sectors_agree hopen).2.2 smallDrive hdrive history
  refine ⟨volume, hopen, hblock, hsector, hdrive, history, hhistory, ?_⟩
  intro asked block sector hasked
  have hkeeps : ∀ inquiry ∈ volume.inquiries history, inquiry.2.Keeps := by
    rw [hhistory]
    have hlisting : listing.Keeps := fun _ _ _ => rfl
    simp [smallHistory, Inquiry.Keeps, hlisting]
  have hsize := hlasting.size_eq fun asked hmem => hkeeps _ (List.mem_map_of_mem hmem)
  rw [hlasting.unchanged hsize, hasked]
  rfl

/-- An outlet that counts blocks in half the size from the first run on. -/
def halving : Outlet (List Run) where
  write := fun run runs => .resize 256 (.done (runs ++ [run], .ok ()))

/-- After an export to this one, the first block behind that of the superblock is another. -/
theorem smallImage_disagrees :
    ∃ volume, (detect smallImage .strict).outcome = .ok volume ∧
      smallDrive.reader = volume.reader ∧
      ∃ (history : List (Σ α : Type, volume.Asked α)) (asked : volume.Asked (Except Fault Bytes)),
        volume.inquiries history = [⟨_, .exportTo halving []⟩] ∧ asked.inquiry = .read 1 none ∧
          volume.answerAfter smallDrive history asked ≠ volume.read 1 none := by
  have hopens : ((detect smallImage .strict).outcome.toOption.map fun volume =>
      (volume.sb.blockSize, (volume.reply (.exportTo halving []) volume.reader).2.blockSize,
        (volume.read 1 none).toOption.map List.length,
        (volume.reply (.read 1 none) (volume.reader.withBlockSize 256)).1.toOption.map
          List.length)) = some (512, 256, some 512, some 256) := by
    decide +kernel
  obtain ⟨volume, hopen, hfacts⟩ := Except.exists_of_toOption_map hopens
  obtain ⟨hblock, hrest⟩ := Prod.mk.inj hfacts
  obtain ⟨hleft, hrest⟩ := Prod.mk.inj hrest
  obtain ⟨hbefore, hafter⟩ := Prod.mk.inj hrest
  have hdrive := smallDrive_reader hopen hblock
  obtain ⟨exported, hexported⟩ := volume.exists_asked (.exportTo halving [])
  obtain ⟨asked, hasked⟩ := volume.exists_asked (.read 1 none)
  refine ⟨volume, hopen, hdrive, [⟨_, exported⟩], asked, by rw [← hexported]; rfl, hasked, ?_⟩
  intro heq
  have hsize : (volume.after smallDrive [⟨_, exported⟩]).reader.blockSize = 256 := by
    rw [after, Drive.reader_after, hdrive, ← hleft, ← hexported, ← exported.faithful]
    rfl
  rw [answerAfter_eq hdrive, hsize, hasked] at heq
  rw [heq, hbefore] at hafter
  cases hafter

end Volume

end DiskScope.Xfs
