/-
  DiskScope/Proofs/Sparse/ExportFailure.lean --- an export fails before it copies, or not at all.

  WHAT THIS FILE IS FOR.  An export could fail half-way and leave a file that looks whole.
  Here that is excluded.  All that can go wrong is that there are more blocks than a
  header can count, or that the used runs cannot be found; both are known before the
  first block is copied.  Copying itself only reads blocks of the volume, which
  all lie inside the image.

  MAIN STATEMENTS.

      writeRun_inside     a run inside the image is copied to its end
      exportSparse_safe   how every export of an opened volume ends
-/
import DiskScope.Proofs.Sparse.Export
import DiskScope.Proofs.Xfs.HandOut

set_option autoImplicit false

namespace DiskScope

namespace Sparse.Writer

/-! ## Copying what is there -/

theorem addRaw_inside {source : BlockReader} {block count : Nat} {writer : Writer}
    (h : (block + count) * source.blockSize ≤ source.image.size) :
    (addRaw source block count writer).2 = .ok () := by
  fun_induction addRaw source block count writer with
  | case1 block writer => rfl
  | case2 block count writer hne blocks contents grown fault hcopy =>
    rw [copy_eq (piece_inside writer.limit h)] at hcopy
    cases (Prod.mk.inj hcopy).2
  | case3 block count writer hne blocks contents grown hcopy ih =>
    have hle : blocks ≤ count := piece_le writer.limit count
    exact ih (by rwa [Nat.add_assoc, Nat.add_sub_cancel' hle])

/-- A run inside the image is copied to its end. -/
theorem writeRun_inside {source : BlockReader} {run : Run} {writer : Writer}
    (h : run.stop * source.blockSize ≤ source.image.size) :
    (writeRun source run writer).2 = .ok () := by
  have hraw : (addRaw source run.start run.length (writer.skipTo run.start)).2 = .ok () :=
    addRaw_inside h
  unfold writeRun
  dsimp only
  split
  · rename_i hfault
    rw [hfault] at hraw
    exact hraw
  · rfl

theorem readFile_fresh {blockSize totalBlocks : Nat} (hsize : blockSize ≤ maxWord)
    (htotal : totalBlocks ≤ maxWord) :
    readFile (Writer.mk blockSize totalBlocks 0 #[]).unfinishedFile =
      some (⟨blockSize, totalBlocks, 0⟩, []) := by
  let fresh : Writer := ⟨blockSize, totalBlocks, 0, #[]⟩
  have hfit : ∀ chunk ∈ fresh.chunks.toList, chunk.Fits fresh.blockSize := by
    intro chunk hmem
    cases hmem
  exact readFile_file hsize htotal (Nat.zero_le maxWord) hfit

end Sparse.Writer

namespace Xfs.Volume

variable {volume : Volume} {destination : String}

/-! ## The ends of an export -/

theorem exportSparse_of_many (h : Sparse.maxWord < volume.sb.blocks) :
    volume.exportSparse destination =
      ([], .fail (.geometryOutOfRange "sparse header" "total_blks" volume.sb.blocks 0
        Sparse.maxWord)) := by
  rw [exportSparse, Sparse.Writer.create, if_pos h]

/-- An export of no more blocks than the header can count hands the used runs to a fresh writer. -/
theorem outcome_exportSparse (h : volume.sb.blocks ≤ Sparse.maxWord) :
    (volume.exportSparse destination).2.outcome =
      (volume.exportTo Sparse.Writer.sink
        ⟨volume.sb.blockSize, volume.sb.blocks, 0, #[]⟩).2.outcome := by
  rw [exportSparse, Sparse.Writer.create, if_neg (Nat.not_lt.2 h)]
  dsimp only
  split
  · rename_i hout
    exact hout.symm
  · rename_i hout
    exact hout.symm

theorem file_exportSparse {fault : Fault} (h : volume.sb.blocks ≤ Sparse.maxWord)
    (hplan : volume.plan = .error fault) :
    (volume.exportSparse destination).1 =
      (Sparse.Writer.mk volume.sb.blockSize volume.sb.blocks 0 #[]).unfinishedFile := by
  obtain ⟨hstate, hout⟩ := exportTo_of_error hplan Sparse.Writer.sink
    ⟨volume.sb.blockSize, volume.sb.blocks, 0, #[]⟩
  rw [exportSparse, Sparse.Writer.create, if_neg (Nat.not_lt.2 h)]
  dsimp only
  rw [hout, hstate]

/-! ## Opened volumes -/

variable {image : Image} {mode : Mode}

theorem stop_le_blocks {runs : List Run} (hplan : volume.plan = .ok runs) {run : Run}
    (hmem : run ∈ runs) : run.stop ≤ volume.sb.blocks :=
  (usedRuns_separated hplan).stop_le (fun block h => ((covered_usedRuns hplan block).1 h).1) hmem

/-- An export with a plan copies it. -/
theorem exportTo_writer_of_ok (hopen : (detect image mode).outcome = .ok volume) {runs : List Run}
    (hplan : volume.plan = .ok runs) (writer : Sparse.Writer) :
    (volume.exportTo Sparse.Writer.sink writer).2.outcome = .ok (runs.map Run.length).sum := by
  have hreader : volume.reader = ⟨image, volume.sb.blockSize⟩ := (detect_ok hopen).2.1
  refine (exportTo_drains hplan Sparse.Writer.sink writer).outcome_of_accepts ?_
  intro run hmem state
  have hinside : run.stop * volume.sb.blockSize ≤ image.size :=
    Nat.le_trans (Nat.mul_le_mul_right _ (stop_le_blocks hplan hmem)) (blocks_le_size hopen)
  refine Sparse.Writer.writeRun_inside ?_
  rw [hreader]
  exact hinside

/-- How the exports of a volume that was opened from `image` end. -/
structure ExportsSafely (volume : Volume) (image : Image) : Prop where
  /-- More blocks than the header can count fail the export, and leave an empty file. -/
  manyBlocks : 2 ^ 32 - 1 < volume.sb.blocks → ∀ destination,
    volume.exportSparse destination =
      ([], .fail (.geometryOutOfRange "sparse header" "total_blks" volume.sb.blocks 0
        (2 ^ 32 - 1)))
  /-- Any other export fails exactly when the used runs cannot be found, and for that reason. -/
  fails_iff : volume.sb.blocks ≤ 2 ^ 32 - 1 → ∀ destination fault,
    (volume.exportSparse destination).2.outcome = .error fault ↔ volume.plan = .error fault
  /-- The file is then a header that counts no chunks, and nothing more. -/
  placeholder : volume.sb.blocks ≤ 2 ^ 32 - 1 → ∀ destination fault, volume.plan = .error fault →
    (volume.exportSparse destination).1.length = 28 ∧
      Sparse.readFile (volume.exportSparse destination).1 =
        some (⟨volume.sb.blockSize, volume.sb.blocks, 0⟩, [])
  /-- The used runs are of exactly the blocks that are not free. -/
  covered_iff : ∀ runs, volume.plan = .ok runs → ∀ block,
    Run.Covered runs block ↔ block < volume.sb.blocks ∧ ¬ volume.IsFree block
  /-- They end where the blocks of the volume do. -/
  stop_le : ∀ runs, volume.plan = .ok runs → ∀ run ∈ runs, run.stop ≤ volume.sb.blocks
  /-- The blocks of the volume lie inside the image. -/
  inside : volume.sb.blocks * volume.sb.blockSize ≤ image.size
  /-- So every read of blocks of a run is whole. -/
  copied : ∀ runs, volume.plan = .ok runs → ∀ run ∈ runs, ∀ block count, run.start ≤ block →
    block + count ≤ run.stop → volume.reader.readBlocks block count =
      .ok (image.bytesFrom (block * volume.sb.blockSize) (count * volume.sb.blockSize))
  /-- No sink is called before the used runs are known. -/
  uncalled : ∀ fault, volume.plan = .error fault → ∀ (σ : Type) (sink : Sink σ) (state : σ),
    volume.calls sink state = [] ∧ (volume.exportTo sink state).1 = state ∧
      (volume.exportTo sink state).2.outcome = .error fault
  /-- Every sink is called with the used runs in ascending order, up to the first that it
  refuses. -/
  called : ∀ runs, volume.plan = .ok runs → Run.Separated 0 runs ∧
    ∀ (σ : Type) (sink : Sink σ) (state : σ),
      sink.Drains volume.reader runs state (volume.exportTo sink state).1
        (volume.exportTo sink state).2.outcome (volume.calls sink state)

/-- An export of an opened volume fails before it copies anything, or not at all. -/
theorem exportSparse_safe (hopen : (detect image mode).outcome = .ok volume)
    (hsize : volume.sb.blockSize ≤ 2 ^ 32 - 13) : volume.ExportsSafely image := by
  have hreader : volume.reader = ⟨image, volume.sb.blockSize⟩ := (detect_ok hopen).2.1
  have hfails : volume.sb.blocks ≤ Sparse.maxWord → ∀ destination fault,
      (volume.exportSparse destination).2.outcome = .error fault ↔
        volume.plan = .error fault := by
    intro hblocks destination fault
    rw [outcome_exportSparse hblocks]
    cases hplan : volume.plan with
    | error reason =>
      rw [(exportTo_of_error hplan _ _).2]
      simp only [Except.error.injEq]
    | ok runs => simp [exportTo_writer_of_ok hopen hplan]
  refine ⟨?_, hfails, ?_, ?_, ?_, blocks_le_size hopen, ?_, ?_, ?_⟩
  · intro hmany destination
    exact exportSparse_of_many hmany
  · intro hblocks destination fault hplan
    rw [file_exportSparse hblocks hplan]
    refine ⟨by simp [Sparse.Writer.unfinishedFile, Sparse.Writer.file, Sparse.Writer.body,
      Sparse.fileHeaderSize], Sparse.Writer.readFile_fresh ?_ hblocks⟩
    exact Nat.le_trans hsize (by decide)
  · intro runs hplan block
    exact covered_usedRuns hplan block
  · intro runs hplan run hmem
    exact stop_le_blocks hplan hmem
  · intro runs hplan run hmem block count hstart hstop
    have hinside : (block + count) * volume.sb.blockSize ≤ image.size :=
      Nat.le_trans (Nat.mul_le_mul_right _ (Nat.le_trans hstop (stop_le_blocks hplan hmem)))
        (blocks_le_size hopen)
    rw [hreader]
    exact BlockReader.readBlocks_inside hinside
  · intro fault hplan σ sink state
    exact ⟨calls_of_error hplan sink state, exportTo_of_error hplan sink state⟩
  · intro runs hplan
    exact ⟨usedRuns_separated hplan, fun σ sink state => exportTo_drains hplan sink state⟩

/-- The small filesystem, whose group header tells of one free block too many. -/
def miscounted : Image := smallImage.overlay 311 ⟨#[2]⟩

/-- A strict run opens it, but cannot find its used runs, and its exports end safely. -/
theorem miscounted_safe :
    ∃ volume, (detect miscounted .strict).outcome = .ok volume ∧
      volume.sb.blockSize ≤ 2 ^ 32 - 13 ∧ volume.plan = .error (.freeCountMismatch 0 2 1) ∧
        volume.ExportsSafely miscounted := by
  have hopens : ((detect miscounted .strict).outcome.toOption.map fun volume =>
      (volume.sb.blockSize, volume.plan)) = some (512, .error (.freeCountMismatch 0 2 1)) := by
    decide +kernel
  obtain ⟨volume, hopen, hfacts⟩ := Except.exists_of_toOption_map hopens
  obtain ⟨hblock, hplan⟩ := Prod.mk.inj hfacts
  have hsize : volume.sb.blockSize ≤ 2 ^ 32 - 13 := by omega
  exact ⟨volume, hopen, hsize, hplan, exportSparse_safe hopen hsize⟩

end Xfs.Volume

end DiskScope
