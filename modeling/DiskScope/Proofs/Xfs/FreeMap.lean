/-
  DiskScope/Proofs/Xfs/FreeMap.lean --- what the used runs of a filesystem are.

  WHAT THIS FILE IS FOR.  The trees of all groups are walked into one bitmap, and the
  used runs are read off it.  Here the bitmap drops out: a block is used when it
  is a block of the filesystem and no free record of any group covers it.

  MAIN STATEMENTS.

      covered_usedRuns   the used runs cover exactly the blocks that no group lists as free
      usedRuns_separated and they are ascending, maximal and not empty
-/
import DiskScope.Proofs.Bitmap.Runs
import DiskScope.Proofs.Traced.Outcome
import DiskScope.Xfs.FreeSpace

set_option autoImplicit false

namespace DiskScope.Xfs

/-! ## Free blocks, without a bitmap -/

/-- The block lies in a free record that counts from block `base`. -/
def FreeRecord.Covers (base : Nat) (record : FreeRecord) (block : Nat) : Prop :=
  base + record.start ≤ block ∧ block < base + record.start + record.count

/-- Some record covers the block. -/
def RecordsCover (base : Nat) (records : List FreeRecord) (block : Nat) : Prop :=
  ∃ record ∈ records, record.Covers base block

/-- A record collected from the group's tree of free space covers the block. -/
def Group.ListsFree (reader : BlockReader) (sb : Superblock) (mode : Mode) (group : Group)
    (block : Nat) : Prop :=
  ∃ root records, group.tree? .freeByBlock = some root ∧
    (freeRecordsOf reader sb group mode root).outcome = .ok records ∧
      RecordsCover (group.baseBlock sb.agBlocks) records block

/-! ## One group -/

theorem markFree_spec (base : Nat) (record : FreeRecord) {free : Bitmap} (h : free.WellFormed) :
    (markFree base free record).WellFormed ∧
      (markFree base free record).bitCount = free.bitCount ∧
      ∀ block, (markFree base free record).test block = true ↔
        free.test block = true ∨ block < free.bitCount ∧ record.Covers base block := by
  refine ⟨h.setRange _ _, h.bitCount_setRange _ _, ?_⟩
  intro block
  rw [markFree, h.test_setRange, Bool.or_eq_true, decide_eq_true_eq, FreeRecord.Covers]
  constructor
  · rintro (hset | ⟨hstart, hstop, hlt⟩)
    · exact .inl hset
    · exact .inr ⟨hlt, hstart, hstop⟩
  · rintro (hset | ⟨hlt, hstart, hstop⟩)
    · exact .inl hset
    · exact .inr ⟨hstart, hstop, hlt⟩

/-- Marking the records of a group adds exactly their blocks. -/
theorem markAll_spec (base : Nat) (records : List FreeRecord) {free : Bitmap}
    (h : free.WellFormed) :
    (records.foldl (markFree base) free).WellFormed ∧
      (records.foldl (markFree base) free).bitCount = free.bitCount ∧
      ∀ block, (records.foldl (markFree base) free).test block = true ↔
        free.test block = true ∨ block < free.bitCount ∧ RecordsCover base records block := by
  induction records generalizing free with
  | nil =>
    refine ⟨h, rfl, ?_⟩
    intro block
    simp [RecordsCover]
  | cons record rest ih =>
    obtain ⟨hwf, hcount, htest⟩ := markFree_spec base record h
    obtain ⟨hwf', hcount', htest'⟩ := ih hwf
    rw [List.foldl_cons]
    refine ⟨hwf', by rw [hcount', hcount], ?_⟩
    intro block
    rw [htest', htest, hcount, or_assoc, ← and_or_left]
    simp [RecordsCover]

/-- A group that is added without a fault has its records marked, or has no tree. -/
theorem addGroup_ok {reader : BlockReader} {sb : Superblock} {mode : Mode} {free marked : Bitmap}
    {group : Group} (h : (addGroup reader sb mode free group).outcome = .ok marked) :
    (group.tree? .freeByBlock = none ∧ marked = free) ∨
      ∃ root records, group.tree? .freeByBlock = some root ∧
        (freeRecordsOf reader sb group mode root).outcome = .ok records ∧
          marked = records.foldl (markFree (group.baseBlock sb.agBlocks)) free := by
  unfold addGroup at h
  cases htree : group.tree? .freeByBlock with
  | none =>
    simp only [htree] at h
    obtain ⟨_, _, h⟩ := Traced.bind_eq_ok.1 h
    obtain ⟨_, _, h⟩ := Traced.bind_eq_ok.1 h
    exact .inl ⟨rfl, (Except.ok.inj h).symm⟩
  | some root =>
    simp only [htree] at h
    obtain ⟨records, hrecords, h⟩ := Traced.bind_eq_ok.1 h
    obtain ⟨_, _, h⟩ := Traced.bind_eq_ok.1 h
    obtain ⟨_, _, h⟩ := Traced.bind_eq_ok.1 h
    exact .inr ⟨root, records, rfl, hrecords, (Except.ok.inj h).symm⟩

theorem addGroup_spec {reader : BlockReader} {sb : Superblock} {mode : Mode}
    {free marked : Bitmap} {group : Group} (hwf : free.WellFormed)
    (h : (addGroup reader sb mode free group).outcome = .ok marked) :
    marked.WellFormed ∧ marked.bitCount = free.bitCount ∧
      ∀ block, marked.test block = true ↔
        free.test block = true ∨
          block < free.bitCount ∧ group.ListsFree reader sb mode block := by
  rcases addGroup_ok h with ⟨htree, rfl⟩ | ⟨root, records, htree, hrecords, rfl⟩
  · refine ⟨hwf, rfl, ?_⟩
    intro block
    simp [Group.ListsFree, htree]
  · obtain ⟨hwf', hcount, htest⟩ := markAll_spec (group.baseBlock sb.agBlocks) records hwf
    refine ⟨hwf', hcount, ?_⟩
    intro block
    rw [htest]
    simp [Group.ListsFree, htree, hrecords]

/-! ## All groups -/

theorem addGroups_spec {reader : BlockReader} {sb : Superblock} {mode : Mode}
    {groups : List Group} {free marked : Bitmap} (hwf : free.WellFormed)
    (h : (addGroups reader sb mode free groups).outcome = .ok marked) :
    marked.WellFormed ∧ marked.bitCount = free.bitCount ∧
      ∀ block, marked.test block = true ↔
        free.test block = true ∨
          block < free.bitCount ∧ ∃ group ∈ groups, group.ListsFree reader sb mode block := by
  induction groups generalizing free with
  | nil =>
    obtain rfl : free = marked := Except.ok.inj h
    refine ⟨hwf, rfl, ?_⟩
    intro block
    simp
  | cons group rest ih =>
    obtain ⟨next, hgroup, h⟩ := Traced.bind_eq_ok.1 h
    obtain ⟨hwf', hcount, htest⟩ := addGroup_spec hwf hgroup
    obtain ⟨hwf'', hcount', htest'⟩ := ih hwf' h
    refine ⟨hwf'', by rw [hcount', hcount], ?_⟩
    intro block
    rw [htest', htest, hcount, or_assoc, ← and_or_left]
    simp

theorem usedRuns_ok {reader : BlockReader} {sb : Superblock} {groups : List Group} {mode : Mode}
    {runs : List Run} (h : (usedRuns reader sb groups mode).outcome = .ok runs) :
    ∃ free : Bitmap, free.WellFormed ∧ free.bitCount = sb.blocks ∧ runs = free.clearRuns ∧
      ∀ block, free.test block = true ↔
        block < sb.blocks ∧ ∃ group ∈ groups, group.ListsFree reader sb mode block := by
  unfold usedRuns freeMap at h
  obtain ⟨free, hfree, h⟩ := Traced.bind_eq_ok.1 h
  obtain ⟨_, _, h⟩ := Traced.bind_eq_ok.1 h
  obtain ⟨hwf, hcount, htest⟩ := addGroups_spec (Bitmap.wellFormed_blank sb.blocks) hfree
  refine ⟨free, hwf, hcount, (Except.ok.inj h).symm, ?_⟩
  intro block
  rw [htest, Bitmap.test_blank]
  simp only [Bool.false_eq_true, false_or]
  rfl

/-- The used runs are ascending, with a gap between any two, and none is empty. -/
theorem usedRuns_separated {reader : BlockReader} {sb : Superblock} {groups : List Group}
    {mode : Mode} {runs : List Run} (h : (usedRuns reader sb groups mode).outcome = .ok runs) :
    Run.Separated 0 runs := by
  obtain ⟨free, _, _, rfl, _⟩ := usedRuns_ok h
  exact free.clearRuns_separated

/-- The used runs cover exactly the blocks that no group lists as free. -/
theorem covered_usedRuns {reader : BlockReader} {sb : Superblock} {groups : List Group}
    {mode : Mode} {runs : List Run} (h : (usedRuns reader sb groups mode).outcome = .ok runs)
    (block : Nat) :
    Run.Covered runs block ↔
      block < sb.blocks ∧ ¬ ∃ group ∈ groups, group.ListsFree reader sb mode block := by
  obtain ⟨free, hwf, hcount, rfl, htest⟩ := usedRuns_ok h
  rw [hwf.clearRuns_covers, hcount, Bool.eq_false_iff, ne_eq, htest, not_and]
  constructor
  · rintro ⟨hlt, himp⟩
    exact ⟨hlt, himp hlt⟩
  · rintro ⟨hlt, hnot⟩
    exact ⟨hlt, fun _ => hnot⟩

end DiskScope.Xfs
