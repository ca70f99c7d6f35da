/-
  DiskScope/Proofs/Sparse/Encoding.lean --- the chunks of any ascending runs.

  WHAT THIS FILE IS FOR.  What a writer makes of runs is known in advance, down to where it cuts.
  This file takes any runs in ascending order that lie inside the source, be they empty,
  adjacent or longer than a chunk can be, and says which chunks they become.  No filesystem
  is involved.

  EQUATIONS.  Every operation of a writer is `extend`: more chunks behind the ones that are
  there, and another first block that none covers.  One equation for each operation says
  which, so a whole hand-out is one `extend` too (`finish_drain`).

  MAIN STATEMENTS.

      encodes_encoding   gaps and runs become the fewest chunks that can cover them
      create_writes      what a writer makes of runs, from its creation to its file
-/
import DiskScope.Proofs.Sparse.ExportFailure
import Mathlib.Algebra.Order.Floor.Div

set_option autoImplicit false

namespace DiskScope.Sparse

/-- The contents that a chunk carries. -/
def Chunk.contents : Chunk → Bytes
  | .raw _ contents => contents
  | .skip _ => []

/-! ## What a stretch becomes -/

/-- The chunks cover `count` blocks, each at least one and at most `limit` of them, and there are
no more of them than there must be. -/
structure Cuts (limit count : Nat) (chunks : List Chunk) : Prop where
  length_eq : chunks.length = count ⌈/⌉ limit
  bounds : ∀ chunk ∈ chunks, 1 ≤ chunk.blocks ∧ chunk.blocks ≤ limit
  sum_eq : (chunks.map Chunk.blocks).sum = count

/-- The chunks skip `count` blocks. -/
structure Skips (limit count : Nat) (chunks : List Chunk) : Prop extends
    Cuts limit count chunks where
  skips : ∀ chunk ∈ chunks, chunk = .skip chunk.blocks

/-- The chunks keep the blocks of a run, with the bytes that the source has there. -/
structure Keeps (source : BlockReader) (limit : Nat) (run : Run) (chunks : List Chunk) : Prop extends
    Cuts limit run.length chunks where
  raw : ∀ chunk ∈ chunks, chunk = .raw chunk.blocks chunk.contents
  length_contents : ∀ chunk ∈ chunks, chunk.contents.length = chunk.blocks * source.blockSize
  contents_eq : chunks.flatMap Chunk.contents =
    source.image.bytesFrom (run.start * source.blockSize) (run.length * source.blockSize)

/-- The chunks are those of `runs` and of the gaps around them, from block `lo` to the end of a
device of `total` blocks. -/
inductive Encodes (source : BlockReader) (limit total : Nat) : Nat → List Run → List Chunk → Prop
  /-- After the last run the rest is skipped. -/
  | rest {lo : Nat} {gap : List Chunk} (hgap : Skips limit (total - lo) gap) :
    Encodes source limit total lo [] gap
  /-- A run comes after the gap in front of it. -/
  | run {lo : Nat} {run : Run} {runs : List Run} {gap kept later : List Chunk}
    (hgap : Skips limit (run.start - lo) gap) (hkept : Keeps source limit run kept)
    (hlater : Encodes source limit total run.stop runs later) :
    Encodes source limit total lo (run :: runs) (gap ++ (kept ++ later))

section
variable {source : BlockReader} {limit total lo count : Nat} {run : Run} {runs : List Run}
  {chunks : List Chunk}

/-- Chunks of the sizes into which a stretch is cut. -/
theorem cuts_of_split (hlimit : 0 < limit) (h : chunks.map Chunk.blocks = split limit count) :
    Cuts limit count chunks := by
  have hlength : chunks.length = (split limit count).length := by
    rw [← h, List.length_map]
  refine ⟨?_, ?_, ?_⟩
  · rw [hlength, length_split hlimit, Nat.ceilDiv_eq_add_pred_div]
  · intro chunk hmem
    have hsize : chunk.blocks ∈ split limit count := by
      rw [← h]
      exact List.mem_map_of_mem hmem
    obtain ⟨hpos, hle⟩ := split_bounds hsize
    omega
  · rw [h, List.sum, total_split]

theorem Encodes.sum_blocks (h : Encodes source limit total lo runs chunks)
    (horder : Run.Ordered lo runs) (hstop : ∀ run ∈ runs, run.stop ≤ total) :
    (chunks.map Chunk.blocks).sum = total - lo := by
  induction h with
  | rest hgap => exact hgap.sum_eq
  | @run lo run runs gap kept later hgap hkept hlater ih =>
    have hrest := ih horder.2 fun other hmem => hstop other (List.mem_cons_of_mem _ hmem)
    have hend := hstop run List.mem_cons_self
    have hstart := horder.1
    simp only [List.map_append, List.sum_append, hgap.sum_eq, hkept.sum_eq, hrest]
    unfold Run.stop at hend ⊢
    omega

/-- No chunk is empty, none is over the limit, and all contents are whole. -/
theorem Encodes.sizes (h : Encodes source limit total lo runs chunks) :
    ∀ chunk ∈ chunks, 1 ≤ chunk.blocks ∧ chunk.blocks ≤ limit ∧
      (chunk = .skip chunk.blocks ∨ chunk = .raw chunk.blocks chunk.contents ∧
        chunk.contents.length = chunk.blocks * source.blockSize) := by
  induction h with
  | rest hgap =>
    intro chunk hmem
    obtain ⟨hpos, hle⟩ := hgap.bounds chunk hmem
    exact ⟨hpos, hle, .inl (hgap.skips chunk hmem)⟩
  | run hgap hkept hlater ih =>
    intro chunk hmem
    rcases List.mem_append.1 hmem with hmem | hmem
    · obtain ⟨hpos, hle⟩ := hgap.bounds chunk hmem
      exact ⟨hpos, hle, .inl (hgap.skips chunk hmem)⟩
    rcases List.mem_append.1 hmem with hmem | hmem
    · obtain ⟨hpos, hle⟩ := hkept.bounds chunk hmem
      exact ⟨hpos, hle, .inr ⟨hkept.raw chunk hmem, hkept.length_contents chunk hmem⟩⟩
    · exact ih chunk hmem

theorem Encodes.fits (hroomy : Roomy source.blockSize)
    (h : Encodes source (chunkLimit source.blockSize) total lo runs chunks) :
    ∀ chunk ∈ chunks, chunk.Fits source.blockSize := by
  intro chunk hmem
  obtain ⟨hpos, hle, hkind⟩ := h.sizes chunk hmem
  obtain ⟨hword, hroom⟩ := hroomy.size_le (Nat.le_trans hle (Nat.le_max_left _ _))
  cases chunk with
  | skip blocks => exact ⟨hpos, hword⟩
  | raw blocks contents =>
    rcases hkind with hskip | ⟨-, hwhole⟩
    · cases hskip
    · exact ⟨hpos, hword, hwhole, hroom⟩

/-! ## The chunks that a writer makes -/

/-- The chunks of a gap of `count` blocks. -/
def gapChunks (limit count : Nat) : List Chunk := (split limit count).map Chunk.skip

/-- Raw chunks of the given sizes, for the blocks from `block` on. -/
def rawChunks (source : BlockReader) : (block : Nat) → (sizes : List Nat) → List Chunk
  | _, [] => []
  | block, n :: sizes =>
    .raw n (source.image.bytesFrom (block * source.blockSize) (n * source.blockSize))
      :: rawChunks source (block + n) sizes

/-- The chunks of a run. -/
def runChunks (source : BlockReader) (limit : Nat) (run : Run) : List Chunk :=
  rawChunks source run.start (split limit run.length)

/-- The chunks of runs and of the gaps around them, from block `lo` on. -/
def encoding (source : BlockReader) (limit total : Nat) : (lo : Nat) → List Run → List Chunk
  | lo, [] => gapChunks limit (total - lo)
  | lo, run :: rest =>
    gapChunks limit (run.start - lo)
      ++ (runChunks source limit run ++ encoding source limit total run.stop rest)

@[simp] theorem gapChunks_zero (limit : Nat) : gapChunks limit 0 = [] := by
  rw [gapChunks, split, if_pos rfl, List.map_nil]

theorem skips_gapChunks (hlimit : 0 < limit) : Skips limit count (gapChunks limit count) := by
  have hsizes : (gapChunks limit count).map Chunk.blocks = split limit count := by
    rw [gapChunks, List.map_map]
    exact List.map_id _
  refine ⟨cuts_of_split hlimit hsizes, ?_⟩
  intro chunk hmem
  obtain ⟨n, -, rfl⟩ := List.mem_map.1 hmem
  rfl

@[simp] theorem map_blocks_rawChunks (source : BlockReader) (block : Nat) (sizes : List Nat) :
    (rawChunks source block sizes).map Chunk.blocks = sizes := by
  induction sizes generalizing block with
  | nil => rfl
  | cons n sizes ih => rw [rawChunks, List.map_cons, ih, Chunk.blocks]

theorem mem_rawChunks {block : Nat} {sizes : List Nat} {chunk : Chunk}
    (h : chunk ∈ rawChunks source block sizes) :
    chunk = .raw chunk.blocks chunk.contents ∧
      chunk.contents.length = chunk.blocks * source.blockSize := by
  induction sizes generalizing block with
  | nil => cases h
  | cons n sizes ih =>
    rcases List.mem_cons.1 h with rfl | hrest
    · exact ⟨rfl, Image.length_bytesFrom _ _ _⟩
    · exact ih hrest

/-- Wherever a stretch is cut, the contents are those of the stretch. -/
theorem contents_rawChunks (source : BlockReader) (block : Nat) (sizes : List Nat) :
    (rawChunks source block sizes).flatMap Chunk.contents =
      source.image.bytesFrom (block * source.blockSize) (sizes.sum * source.blockSize) := by
  induction sizes generalizing block with
  | nil => simp [rawChunks, Image.bytesFrom]
  | cons n sizes ih =>
    rw [rawChunks, List.flatMap_cons, ih, Chunk.contents, List.sum_cons, Nat.add_mul n,
      Image.bytesFrom_add, Nat.add_mul block]

theorem keeps_runChunks (source : BlockReader) (hlimit : 0 < limit) (run : Run) :
    Keeps source limit run (runChunks source limit run) := by
  refine ⟨cuts_of_split hlimit (map_blocks_rawChunks _ _ _), ?_, ?_, ?_⟩
  · intro chunk hmem
    exact (mem_rawChunks hmem).1
  · intro chunk hmem
    exact (mem_rawChunks hmem).2
  · rw [runChunks, contents_rawChunks, List.sum, total_split]

/-- Gaps and runs become the fewest chunks that can cover them. -/
theorem encodes_encoding (source : BlockReader) (hlimit : 0 < limit) (total lo : Nat)
    (runs : List Run) :
    Encodes source limit total lo runs (encoding source limit total lo runs) := by
  induction runs generalizing lo with
  | nil => exact .rest (skips_gapChunks hlimit)
  | cons run rest ih =>
    exact .run (skips_gapChunks hlimit) (keeps_runChunks source hlimit run) (ih run.stop)

end

/-! ## How long a chunk can be -/

theorem chunkLimit_eq {blockSize : Nat} (h : 0 < blockSize) :
    chunkLimit blockSize = (2 ^ 32 - 13) / blockSize := by
  rw [chunkLimit, Nat.max_eq_left h]
  rfl

theorem chunkLimit_pos_iff {blockSize : Nat} (h : 0 < blockSize) :
    1 ≤ chunkLimit blockSize ↔ blockSize ≤ 2 ^ 32 - 13 := by
  rw [chunkLimit_eq h]
  exact Nat.div_pos_iff.trans (and_iff_right h)

theorem Chunk.Fits.announced_le {blockSize : Nat} {chunk : Chunk} (h : chunk.Fits blockSize) :
    chunk.blocks ≤ 2 ^ 32 - 1 ∧ 12 + chunk.contents.length ≤ 2 ^ 32 - 1 := by
  cases chunk with
  | raw blocks contents =>
    obtain ⟨-, hword, hwhole, hroom⟩ := h
    rw [← hwhole] at hroom
    exact ⟨hword, hroom⟩
  | skip blocks => exact ⟨h.2, show 12 + 0 ≤ 2 ^ 32 - 1 by decide⟩

namespace Writer

/-! ## Operations as equations -/

/-- The writer with more chunks, and `block` as the first block that none covers. -/
def extend (writer : Writer) (added : List Chunk) (block : Nat) : Writer :=
  { writer with nextBlock := block, chunks := writer.chunks ++ added }

section
variable (writer : Writer) (added more : List Chunk) (block block' : Nat)

@[simp] theorem limit_extend : (writer.extend added block).limit = writer.limit := rfl

@[simp] theorem nextBlock_extend : (writer.extend added block).nextBlock = block := rfl

@[simp] theorem totalBlocks_extend :
    (writer.extend added block).totalBlocks = writer.totalBlocks := rfl

@[simp] theorem toList_extend :
    (writer.extend added block).chunks.toList = writer.chunks.toList ++ added := by
  simp [extend]

@[simp] theorem extend_extend :
    (writer.extend added block).extend more block' = writer.extend (added ++ more) block' := by
  have hchunks : writer.chunks ++ added ++ more = writer.chunks ++ (added ++ more) :=
    Array.toList_inj.1 (by simp)
  simp only [extend, hchunks]

@[simp] theorem extend_nil : writer.extend [] writer.nextBlock = writer := by
  simp [extend]

theorem file_extend (count : Nat) :
    (writer.extend added block).file count =
      writer.file count ++ added.flatMap (Chunk.encode writer.blockSize) := by
  rw [file, file, body, body, toList_extend, List.flatMap_append, List.append_assoc]
  rfl

theorem skipTo_eq :
    writer.skipTo block =
      writer.extend (gapChunks writer.limit (block - writer.nextBlock))
        (max writer.nextBlock block) := by
  unfold skipTo
  split
  · rename_i hahead
    have hstop : writer.nextBlock + (block - writer.nextBlock) = max writer.nextBlock block := by
      omega
    rw [skip, hstop]
    rfl
  · rename_i hbehind
    rw [Nat.sub_eq_zero_of_le (Nat.not_lt.1 hbehind), Nat.max_eq_left (Nat.not_lt.1 hbehind),
      gapChunks_zero, extend_nil]

end

section
variable {source : BlockReader} {block count : Nat} {run : Run} {runs : List Run}

theorem addRaw_eq (writer : Writer) (h : (block + count) * source.blockSize ≤ source.image.size) :
    addRaw source block count writer =
      (writer.extend (rawChunks source block (split writer.limit count)) writer.nextBlock,
        .ok ()) := by
  fun_induction addRaw source block count writer with
  | case1 block writer =>
    rw [split, if_pos rfl, rawChunks, extend_nil]
  | case2 block count writer hne blocks contents grown fault hcopy =>
    -- Inside the image no copy fails.
    rw [copy_eq (piece_inside writer.limit h)] at hcopy
    cases (Prod.mk.inj hcopy).2
  | case3 block count writer hne blocks contents grown hcopy ih =>
    have hle : blocks ≤ count := piece_le writer.limit count
    have hfirst : (block + blocks) * source.blockSize ≤ source.image.size :=
      piece_inside writer.limit h
    rw [copy_eq hfirst] at hcopy
    obtain rfl := (Prod.mk.inj hcopy).1
    have hgrown : grown = writer.extend [.raw blocks (source.image.bytesFrom
        (block * source.blockSize) (blocks * source.blockSize))] writer.nextBlock := by
      simp [grown, extend]
    have hsizes : split writer.limit count = blocks :: split writer.limit (count - blocks) := by
      rw [split, if_neg hne]
    rw [ih (by rwa [Nat.add_assoc, Nat.add_sub_cancel' hle]), hgrown, extend_extend, hsizes]
    rfl

/-- A run inside the image becomes the chunks of the gap in front of it and its own. -/
theorem writeRun_eq (writer : Writer) (h : run.stop * source.blockSize ≤ source.image.size) :
    writeRun source run writer =
      (writer.extend (gapChunks writer.limit (run.start - writer.nextBlock)
        ++ runChunks source writer.limit run) run.stop, .ok ()) := by
  rw [writeRun, skipTo_eq, addRaw_eq _ h, limit_extend, extend_extend]
  rfl

/-- Handing out runs and finishing is to put the chunks of all of them behind the others. -/
theorem finish_drain (writer : Writer)
    (h : ∀ run ∈ runs, run.stop * source.blockSize ≤ source.image.size) :
    (sink.drain source runs writer).1.finish =
      writer.extend (encoding source writer.limit writer.totalBlocks writer.nextBlock runs)
        (max (layoutEnd writer.nextBlock runs) writer.totalBlocks) := by
  -- The writer is general: each run finds it standing at the end of the one before.
  induction runs generalizing writer with
  | nil => exact skipTo_eq writer writer.totalBlocks
  | cons run rest ih =>
    have hwrite := writeRun_eq writer (h run List.mem_cons_self)
    have hrest := fun other hmem => h other (List.mem_cons_of_mem run hmem)
    have hdrain : (sink.drain source (run :: rest) writer).1 =
        (sink.drain source rest (writeRun source run writer).1).1 := by
      rw [Xfs.Sink.drain]
      simp only [sink, hwrite]
    rw [hdrain, hwrite, ih _ hrest, extend_extend, limit_extend, totalBlocks_extend,
      nextBlock_extend, List.append_assoc]
    rfl

theorem outcome_drain (writer : Writer)
    (h : ∀ run ∈ runs, run.stop * source.blockSize ≤ source.image.size) :
    (sink.drain source runs writer).2.outcome = .ok (runs.map Run.length).sum := by
  obtain ⟨calls, -, hdrains⟩ := Xfs.Sink.drain_recording sink source runs writer []
  refine hdrains.outcome_of_accepts ?_
  intro run hmem state
  exact writeRun_inside (h run hmem)

end

/-! ## From the first run to the file -/

/-- What a fresh writer makes of `runs` of `source`: an image of `total` blocks that consists of
`chunks`. -/
structure Writes (fresh : Writer) (source : BlockReader) (total : Nat) (runs : List Run)
    (chunks : List Chunk) : Prop where
  /-- Every run is taken. -/
  taken : (sink.drain source runs fresh).2.outcome = .ok (runs.map Run.length).sum
  /-- The chunks are those of the runs and of the gaps around them. -/
  encodes : Encodes source ((2 ^ 32 - 13) / source.blockSize) total 0 runs chunks
  /-- The finished writer has made these chunks and no others. -/
  chunks_eq : (sink.drain source runs fresh).1.finish.chunks.toList = chunks
  /-- The number of chunks, and what the header of each announces, fits a word of 32 bits. -/
  length_le : chunks.length ≤ 2 ^ 32 - 1
  announced_le : ∀ chunk ∈ chunks,
    chunk.blocks ≤ 2 ^ 32 - 1 ∧ 12 + chunk.contents.length ≤ 2 ^ 32 - 1
  /-- Covering the rest only adds to the file. -/
  file_grows : (sink.drain source runs fresh).1.unfinishedFile <+:
    (sink.drain source runs fresh).1.finish.unfinishedFile
  /-- Writing the header anew leaves what comes after it. -/
  body_kept : (sink.drain source runs fresh).1.finish.finishedFile.drop 28 =
    (sink.drain source runs fresh).1.finish.unfinishedFile.drop 28
  /-- The file is read back as these chunks, under a header that counts them. -/
  reads_back : readFile (sink.drain source runs fresh).1.finish.finishedFile =
    some (⟨source.blockSize, total, chunks.length⟩, chunks)

/-- After the file header come the chunks, whatever number the header gives. -/
theorem drop_file (writer : Writer) (count : Nat) : (writer.file count).drop 28 = writer.body :=
  List.drop_left' (length_fileHeader _ _ _)

/-- Covering the rest of the device only adds to the file. -/
theorem unfinishedFile_finish (writer : Writer) :
    writer.unfinishedFile <+: writer.finish.unfinishedFile := by
  rw [finish, skipTo_eq, unfinishedFile, unfinishedFile, file_extend]
  exact List.prefix_append _ _

/-- A fresh writer that got chunks which fit their headers has a file that reads back as these. -/
theorem readFile_extend {blockSize total block : Nat} {chunks : List Chunk}
    (hsize : blockSize ≤ maxWord) (htotal : total ≤ maxWord) (hcount : chunks.length ≤ maxWord)
    (hfit : ∀ chunk ∈ chunks, chunk.Fits blockSize) :
    readFile ((Writer.mk blockSize total 0 #[]).extend chunks block).finishedFile =
      some (⟨blockSize, total, chunks.length⟩, chunks) := by
  have hlist : ((Writer.mk blockSize total 0 #[]).extend chunks block).chunks.toList = chunks :=
    toList_extend _ _ _
  generalize hwriter : (Writer.mk blockSize total 0 #[]).extend chunks block = writer at hlist ⊢
  have hblock : writer.blockSize = blockSize := by
    rw [← hwriter]
    rfl
  have hblocks : writer.totalBlocks = total := by
    rw [← hwriter]
    rfl
  subst hlist hblock hblocks
  exact readFile_file hsize htotal hcount hfit

/-- Ascending runs of the source become the fewest chunks that can hold them, in a file that
reads back as these chunks. -/
theorem create_writes {source : BlockReader} {total : Nat} {runs : List Run}
    (hpos : 1 ≤ source.blockSize) (htotal : total ≤ 2 ^ 32 - 1) (horder : Run.Ordered 0 runs)
    (hstop : ∀ run ∈ runs, run.stop ≤ total)
    (hinside : ∀ run ∈ runs, run.stop * source.blockSize ≤ source.image.size) :
    (1 ≤ chunkLimit source.blockSize ↔ source.blockSize ≤ 2 ^ 32 - 13) ∧
      (source.blockSize ≤ 2 ^ 32 - 13 → ∃ fresh chunks,
        create source.blockSize total = .ok fresh ∧ fresh.Writes source total runs chunks) := by
  refine ⟨chunkLimit_pos_iff hpos, fun hsize => ?_⟩
  have hroomy : Roomy source.blockSize := by
    refine ⟨hpos, ?_⟩
    unfold chunkHeaderSize maxWord
    omega
  let fresh : Writer := ⟨source.blockSize, total, 0, #[]⟩
  let chunks := encoding source (chunkLimit source.blockSize) total 0 runs
  have hcreate : create source.blockSize total = .ok fresh := if_neg (Nat.not_lt.2 htotal)
  have hencodes : Encodes source (chunkLimit source.blockSize) total 0 runs chunks :=
    encodes_encoding source hroomy.chunkLimit_pos total 0 runs
  have hfit := hencodes.fits hroomy
  have hlength : chunks.length ≤ 2 ^ 32 - 1 := by
    have hfew := length_le_blocks hfit
    rw [hencodes.sum_blocks horder hstop] at hfew
    omega
  have hfinish : (sink.drain source runs fresh).1.finish = fresh.extend chunks _ :=
    finish_drain fresh hinside
  refine ⟨fresh, chunks, hcreate, outcome_drain fresh hinside, ?_, ?_, hlength, ?_, ?_, ?_, ?_⟩
  · rwa [← chunkLimit_eq hpos]
  · rw [hfinish, toList_extend]
    rfl
  · intro chunk hmem
    exact (hfit chunk hmem).announced_le
  · exact unfinishedFile_finish _
  · rw [finishedFile, unfinishedFile, drop_file, drop_file]
  · have hword : source.blockSize ≤ maxWord := Nat.le_trans hsize (by decide)
    rw [hfinish]
    exact readFile_extend hword htotal hlength hfit

/-- Six blocks of two gigabytes, so that no chunk can hold two of them. -/
def hugeBlocks : BlockReader := ⟨Image.zeros (6 * 2 ^ 31), 2 ^ 31⟩

/-- Of three adjacent runs, one of them empty, the first takes a chunk for each block. -/
theorem hugeBlocks_writes :
    ∃ fresh chunks, create hugeBlocks.blockSize 6 = .ok fresh ∧
      fresh.Writes hugeBlocks 6 [⟨1, 3⟩, ⟨4, 0⟩, ⟨4, 1⟩] chunks ∧ chunks.length = 6 := by
  obtain ⟨-, hwrites⟩ := @create_writes hugeBlocks 6 [⟨1, 3⟩, ⟨4, 0⟩, ⟨4, 1⟩] (by decide)
    (by decide) (by simp [Run.Ordered, Run.stop]) (by simp [Run.stop])
    (by simp [Run.stop, hugeBlocks, Image.zeros, Image.longest])
  obtain ⟨fresh, chunks, hcreate, hwrites⟩ := hwrites (by decide)
  refine ⟨fresh, chunks, hcreate, hwrites, ?_⟩
  have hone : (2 ^ 32 - 13) / hugeBlocks.blockSize = 1 := by decide
  have hencodes := hwrites.encodes
  rw [hone] at hencodes
  obtain _ | ⟨hgap, hfirst, _ | ⟨hgap', hempty, _ | ⟨hgap'', hlast, hrest | _⟩⟩⟩ := hencodes
  simp only [List.length_append, hgap.length_eq, hfirst.length_eq, hgap'.length_eq,
    hempty.length_eq, hgap''.length_eq, hlast.length_eq, hrest.length_eq,
    Nat.ceilDiv_eq_add_pred_div, Run.stop]

end Writer

end DiskScope.Sparse
