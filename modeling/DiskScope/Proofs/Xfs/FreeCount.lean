/-
  DiskScope/Proofs/Xfs/FreeCount.lean --- what the count of a group's free blocks says.

  WHAT THIS FILE IS FOR.  A group is reconciled by two numbers that need not agree: its
  header is compared with the sum of the counts of its records, while the map holds a set
  of blocks.  Records that overlap, that reach past the end of the map or that name blocks
  already marked are counted in full and marked once or not at all.  Here it is said what
  is marked, what is answered, and when the count is the number of blocks newly marked.

  ORDER.  The map is a union, so neither the order of the records of a group nor the order
  of the groups makes a difference to it.

  MAIN STATEMENTS.

      card_newlyFree             records mark as many blocks as they count exactly if all
                                 of their blocks are fresh, and never more
      addGroups_perm             the groups of a filesystem may be added in any order
      reconcileGroup_accounts    all that is known of reconciling a group
-/
import DiskScope.Proofs.Bitmap.FiniteSet
import DiskScope.Proofs.Xfs.FreeMap

set_option autoImplicit false

namespace DiskScope.Xfs

/-! ## What records add -/

theorem recordTotal_eq_sum (records : List FreeRecord) :
    recordTotal records = (records.map FreeRecord.count).sum := by
  rw [recordTotal, List.sum_eq_foldl, List.foldl_map]

/-- The blocks that marking records newly sets. -/
def newlyFree (free : Bitmap) (base : Nat) (records : List FreeRecord) : Finset Nat :=
  (records.foldl (markFree base) free).members \ free.members

theorem mem_newlyFree {free : Bitmap} (h : free.WellFormed) {base block : Nat}
    {records : List FreeRecord} :
    block ∈ newlyFree free base records ↔
      block < free.bitCount ∧ RecordsCover base records block ∧ free.test block = false := by
  rw [newlyFree, Finset.mem_sdiff, Bitmap.mem_members, Bitmap.mem_members,
    (markAll_spec base records h).2.2, Bool.not_eq_true]
  constructor
  · rintro ⟨hset | ⟨hlt, hcover⟩, hclear⟩
    · rw [hset] at hclear
      cases hclear
    · exact ⟨hlt, hcover, hclear⟩
  · rintro ⟨hlt, hcover, hclear⟩
    exact ⟨.inr ⟨hlt, hcover⟩, hclear⟩

/-- Every block of the record is one of the map's, and clear in it. -/
def FreeRecord.Fresh (free : Bitmap) (base : Nat) (record : FreeRecord) : Prop :=
  ∀ block, record.Covers base block → block < free.bitCount ∧ free.test block = false

/-- The records are of blocks that the map has and that are clear in it, no block in two records. -/
structure AllFresh (free : Bitmap) (base : Nat) (records : List FreeRecord) : Prop where
  fresh : ∀ record ∈ records, record.Fresh free base
  disjoint : records.Pairwise fun record other =>
    ∀ block, record.Covers base block → ¬ other.Covers base block

theorem allFresh_cons {free : Bitmap} (h : free.WellFormed) {base : Nat} {record : FreeRecord}
    {rest : List FreeRecord} :
    AllFresh free base (record :: rest) ↔
      record.Fresh free base ∧ AllFresh (markFree base free record) base rest := by
  obtain ⟨_, hcount, htest⟩ := markFree_spec base record h
  constructor
  · rintro ⟨hfresh, hdisjoint⟩
    obtain ⟨hapart, hdisjoint⟩ := List.pairwise_cons.1 hdisjoint
    obtain ⟨hfirst, hrest⟩ := List.forall_mem_cons.1 hfresh
    refine ⟨hfirst, fun other hmem block hcovers => ?_, hdisjoint⟩
    obtain ⟨hlt, hclear⟩ := hrest other hmem block hcovers
    refine ⟨hcount ▸ hlt, Bool.eq_false_iff.2 fun hmarked => ?_⟩
    rcases (htest block).1 hmarked with hset | ⟨_, hfirst⟩
    · rw [hset] at hclear
      cases hclear
    · exact hapart other hmem block hfirst hcovers
  · rintro ⟨hfirst, hfresh, hdisjoint⟩
    refine ⟨List.forall_mem_cons.2 ⟨hfirst, fun other hmem block hcovers => ?_⟩,
      List.pairwise_cons.2 ⟨fun other hmem block hcovers hcovers' => ?_, hdisjoint⟩⟩
    · obtain ⟨hlt, hclear⟩ := hfresh other hmem block hcovers
      rw [hcount] at hlt
      rw [Bool.eq_false_iff, Ne, htest, not_or] at hclear
      exact ⟨hlt, Bool.eq_false_iff.2 hclear.1⟩
    · have hclear := (hfresh other hmem block hcovers').2
      rw [(htest block).2 (.inr ⟨(hfirst block hcovers).1, hcovers⟩)] at hclear
      cases hclear

/-! ## How many they add -/

/-- The blocks of a record. -/
def FreeRecord.blocks (base : Nat) (record : FreeRecord) : Finset Nat :=
  Finset.Ico (base + record.start) (base + record.start + record.count)

theorem newlyFree_singleton {free : Bitmap} (h : free.WellFormed) (base : Nat)
    (record : FreeRecord) :
    newlyFree free base [record] ⊆ record.blocks base ∧
      (record.blocks base ⊆ newlyFree free base [record] ↔ record.Fresh free base) := by
  have hmem : ∀ block, block ∈ newlyFree free base [record] ↔
      block < free.bitCount ∧ record.Covers base block ∧ free.test block = false := by
    intro block
    rw [mem_newlyFree h]
    simp [RecordsCover]
  constructor
  · intro block hblock
    exact Finset.mem_Ico.2 ((hmem block).1 hblock).2.1
  · constructor
    · intro hsub block hcovers
      obtain ⟨hlt, _, hclear⟩ := (hmem block).1 (hsub (Finset.mem_Ico.2 hcovers))
      exact ⟨hlt, hclear⟩
    · intro hfresh block hblock
      have hcovers : record.Covers base block := Finset.mem_Ico.1 hblock
      obtain ⟨hlt, hclear⟩ := hfresh block hcovers
      exact (hmem block).2 ⟨hlt, hcovers, hclear⟩

/-- One record adds at most as many blocks as it counts, and as many exactly if all are fresh. -/
theorem card_newlyFree_singleton {free : Bitmap} (h : free.WellFormed) (base : Nat)
    (record : FreeRecord) :
    (newlyFree free base [record]).card ≤ record.count ∧
      ((newlyFree free base [record]).card = record.count ↔ record.Fresh free base) := by
  obtain ⟨hsub, hsup⟩ := newlyFree_singleton h base record
  have hcard : (record.blocks base).card = record.count := by
    rw [FreeRecord.blocks, Nat.card_Ico, Nat.add_sub_cancel_left]
  rw [← hsup, ← hcard]
  refine ⟨Finset.card_le_card hsub, fun heq => ?_, fun hsup => ?_⟩
  · exact (Finset.eq_of_subset_of_card_le hsub (Nat.le_of_eq heq.symm)).ge
  · exact congrArg Finset.card (hsub.antisymm hsup)

theorem members_subset_markAll {free : Bitmap} (h : free.WellFormed) (base : Nat)
    (records : List FreeRecord) :
    free.members ⊆ (records.foldl (markFree base) free).members := by
  intro block hblock
  rw [Bitmap.mem_members] at hblock ⊢
  exact ((markAll_spec base records h).2.2 block).2 (.inl hblock)

theorem card_newlyFree_cons {free : Bitmap} (h : free.WellFormed) (base : Nat)
    (record : FreeRecord) (rest : List FreeRecord) :
    (newlyFree free base (record :: rest)).card =
      (newlyFree free base [record]).card +
        (newlyFree (markFree base free record) base rest).card := by
  have hwf := (markFree_spec base record h).1
  have hfirst := Finset.card_sdiff_add_card_eq_card (members_subset_markAll h base [record])
  have hrest := Finset.card_sdiff_add_card_eq_card (members_subset_markAll hwf base rest)
  have hall := Finset.card_sdiff_add_card_eq_card (members_subset_markAll h base (record :: rest))
  simp only [newlyFree, List.foldl_cons, List.foldl_nil] at hfirst hall ⊢
  omega

/-- Records add at most as many blocks as they count, and as many exactly if all are fresh. -/
theorem card_newlyFree {free : Bitmap} (h : free.WellFormed) (base : Nat)
    (records : List FreeRecord) :
    (newlyFree free base records).card ≤ (records.map FreeRecord.count).sum ∧
      ((newlyFree free base records).card = (records.map FreeRecord.count).sum ↔
        AllFresh free base records) := by
  -- What is fresh for the later records is so in the map that the first one has marked already.
  induction records generalizing free with
  | nil =>
    have hnone : newlyFree free base [] = ∅ := Finset.sdiff_self _
    rw [hnone]
    exact ⟨Nat.le_refl 0, fun _ => ⟨by simp, .nil⟩, fun _ => rfl⟩
  | cons record rest ih =>
    obtain ⟨hle, heq⟩ := card_newlyFree_singleton h base record
    obtain ⟨hle', heq'⟩ := ih (markFree_spec base record h).1
    rw [card_newlyFree_cons h, allFresh_cons h, ← heq, ← heq', List.map_cons, List.sum_cons]
    omega

/-! ## Order -/

theorem markAll_perm {free : Bitmap} (h : free.WellFormed) (base : Nat)
    {records records' : List FreeRecord} (hperm : records.Perm records') :
    records.foldl (markFree base) free = records'.foldl (markFree base) free := by
  obtain ⟨hwf, hcount, htest⟩ := markAll_spec base records h
  obtain ⟨hwf', hcount', htest'⟩ := markAll_spec base records' h
  refine hwf.eq_of_test_iff hwf' (hcount.trans hcount'.symm) fun block => ?_
  rw [htest, htest']
  simp only [RecordsCover, hperm.mem_iff]

/-- What a group brings to a reconciliation. -/
structure GroupRecords where
  ag : Nat
  base : Nat
  records : List FreeRecord
  recorded : Nat
  deriving DecidableEq, Repr, Inhabited

/-- The map after a group was reconciled, whatever came of it. -/
def GroupRecords.mark (free : Bitmap) (group : GroupRecords) : Bitmap :=
  (reconcileGroup free group.ag group.base group.records group.recorded).1

theorem markGroups_spec (groups : List GroupRecords) {free : Bitmap} (h : free.WellFormed) :
    (groups.foldl GroupRecords.mark free).WellFormed ∧
      (groups.foldl GroupRecords.mark free).bitCount = free.bitCount ∧
      ∀ block, (groups.foldl GroupRecords.mark free).test block = true ↔
        free.test block = true ∨ block < free.bitCount ∧
          ∃ group ∈ groups, RecordsCover group.base group.records block := by
  induction groups generalizing free with
  | nil =>
    refine ⟨h, rfl, ?_⟩
    intro block
    simp
  | cons group rest ih =>
    obtain ⟨hwf, hcount, htest⟩ := markAll_spec group.base group.records h
    obtain ⟨hwf', hcount', htest'⟩ := ih hwf
    rw [List.foldl_cons]
    refine ⟨hwf', hcount'.trans hcount, ?_⟩
    intro block
    change (rest.foldl GroupRecords.mark (group.records.foldl (markFree group.base) free)).test
      block = true ↔ _
    rw [htest', htest, hcount, or_assoc, ← and_or_left]
    simp

theorem markGroups_perm {free : Bitmap} (h : free.WellFormed) {groups groups' : List GroupRecords}
    (hperm : groups.Perm groups') :
    groups.foldl GroupRecords.mark free = groups'.foldl GroupRecords.mark free := by
  obtain ⟨hwf, hcount, htest⟩ := markGroups_spec groups h
  obtain ⟨hwf', hcount', htest'⟩ := markGroups_spec groups' h
  refine hwf.eq_of_test_iff hwf' (hcount.trans hcount'.symm) fun block => ?_
  rw [htest, htest']
  simp only [hperm.mem_iff]

variable {reader : BlockReader} {sb : Superblock} {mode : Mode}

/-- Whether a group can be added does not depend on what is in the map. -/
theorem addGroup_ok_of_ok {free marked : Bitmap} {group : Group}
    (h : (addGroup reader sb mode free group).outcome = .ok marked) (free' : Bitmap) :
    ∃ marked', (addGroup reader sb mode free' group).outcome = .ok marked' := by
  -- The records come from the image and are compared by their counts: neither looks at the map.
  unfold addGroup at h ⊢
  cases htree : group.tree? .freeByBlock with
  | none =>
    simp only [htree] at h ⊢
    obtain ⟨passed, hpassed, _⟩ := Traced.bind_eq_ok.1 h
    exact ⟨_, Traced.bind_eq_ok.2 ⟨passed, hpassed, Traced.bind_eq_ok.2 ⟨(), rfl, rfl⟩⟩⟩
  | some root =>
    simp only [htree] at h ⊢
    obtain ⟨records, hrecords, h⟩ := Traced.bind_eq_ok.1 h
    obtain ⟨agrees, hagrees, _⟩ := Traced.bind_eq_ok.1 h
    exact ⟨_, Traced.bind_eq_ok.2 ⟨records, hrecords,
      Traced.bind_eq_ok.2 ⟨agrees, hagrees, Traced.bind_eq_ok.2 ⟨(), rfl, rfl⟩⟩⟩⟩

theorem exists_addGroups_iff {free : Bitmap} {groups : List Group} :
    (∃ marked, (addGroups reader sb mode free groups).outcome = .ok marked) ↔
      ∀ group ∈ groups, ∀ free', ∃ marked,
        (addGroup reader sb mode free' group).outcome = .ok marked := by
  induction groups generalizing free with
  | nil =>
    refine ⟨fun _ group hmem => ?_, fun _ => ⟨free, rfl⟩⟩
    cases hmem
  | cons group rest ih =>
    rw [List.forall_mem_cons]
    constructor
    · rintro ⟨marked, h⟩
      obtain ⟨next, hgroup, h⟩ := Traced.bind_eq_ok.1 h
      exact ⟨addGroup_ok_of_ok hgroup, ih.1 ⟨marked, h⟩⟩
    · rintro ⟨hgroup, hrest⟩
      obtain ⟨next, hnext⟩ := hgroup free
      obtain ⟨marked, hmarked⟩ := ih.2 hrest
      exact ⟨marked, Traced.bind_eq_ok.2 ⟨next, hnext, hmarked⟩⟩

/-- The order in which a filesystem's groups are added makes no difference to the map. -/
theorem addGroups_perm {free marked : Bitmap} (hwf : free.WellFormed) {groups groups' : List Group}
    (hperm : groups.Perm groups')
    (h : (addGroups reader sb mode free groups).outcome = .ok marked) :
    (addGroups reader sb mode free groups').outcome = .ok marked := by
  have heach := exists_addGroups_iff.1 ⟨marked, h⟩
  obtain ⟨marked', h'⟩ := exists_addGroups_iff.2 fun group hmem => heach group (hperm.mem_iff.2 hmem)
  obtain ⟨hwf₁, hcount, htest⟩ := addGroups_spec hwf h
  obtain ⟨hwf₂, hcount', htest'⟩ := addGroups_spec hwf h'
  rw [h', hwf₁.eq_of_test_iff hwf₂ (hcount.trans hcount'.symm)]
  intro block
  rw [htest, htest']
  simp only [hperm.mem_iff]

/-! ## The account of a group -/

/-- What reconciling a group does to a map and what it answers. -/
structure Reconciles (free : Bitmap) (ag base : Nat) (records : List FreeRecord)
    (recorded : Nat) : Prop where
  /-- Whatever the answer, exactly the blocks of the records that the map has are marked. -/
  test_iff : ∀ block, (reconcileGroup free ag base records recorded).1.test block = true ↔
    free.test block = true ∨ block < free.bitCount ∧
      ∃ record ∈ records, base + record.start ≤ block ∧ block < base + record.start + record.count
  bitCount_eq : (reconcileGroup free ag base records recorded).1.bitCount = free.bitCount
  /-- The answer is the sum of the counts, if that is the recorded number. -/
  ok_iff : ∀ counted, (reconcileGroup free ag base records recorded).2 = .ok counted ↔
    counted = (records.map FreeRecord.count).sum ∧ counted = recorded
  /-- And if not, a fault that gives both. -/
  error_iff : ∀ fault, (reconcileGroup free ag base records recorded).2 = .error fault ↔
    (records.map FreeRecord.count).sum ≠ recorded ∧
      fault = .freeCountMismatch ag recorded (records.map FreeRecord.count).sum
  /-- No more blocks are newly marked than are counted. -/
  newly_le :
    ((reconcileGroup free ag base records recorded).1.members \ free.members).card ≤
      (records.map FreeRecord.count).sum
  /-- And as many exactly if all blocks of the records are in the map, clear, and each in one record
  only. -/
  newly_eq_iff :
    ((reconcileGroup free ag base records recorded).1.members \ free.members).card =
        (records.map FreeRecord.count).sum ↔
      AllFresh free base records

theorem reconciles {free : Bitmap} (h : free.WellFormed) (ag base : Nat)
    (records : List FreeRecord) (recorded : Nat) : Reconciles free ag base records recorded := by
  obtain ⟨_, hcount, htest⟩ := markAll_spec base records h
  obtain ⟨hle, heq⟩ := card_newlyFree h base records
  refine ⟨htest, hcount, ?_, ?_, hle, heq⟩
  · intro counted
    rw [reconcileGroup, recordTotal_eq_sum]
    dsimp only
    split
    · rename_i hagrees
      rw [Except.ok.injEq, eq_comm]
      exact ⟨fun heq => ⟨heq, heq.trans hagrees⟩, And.left⟩
    · rename_i hdiffers
      simp only [reduceCtorEq, false_iff, not_and]
      rintro rfl
      exact hdiffers
  · intro fault
    rw [reconcileGroup, recordTotal_eq_sum]
    dsimp only
    split
    · rename_i hagrees
      simp [hagrees]
    · rename_i hdiffers
      simp [hdiffers, eq_comm]

/-- Reconciling a group marks its free blocks and answers their count.  The map that comes of it
depends neither on the order of the records nor on that of the groups. -/
theorem reconcileGroup_accounts {free : Bitmap} (h : free.WellFormed) :
    (∀ ag base records recorded, Reconciles free ag base records recorded) ∧
      (∀ ag base records records' recorded, records.Perm records' →
        reconcileGroup free ag base records recorded =
          reconcileGroup free ag base records' recorded) ∧
      (∀ groups groups' : List GroupRecords, groups.Perm groups' →
        groups.foldl GroupRecords.mark free = groups'.foldl GroupRecords.mark free) ∧
      ∀ reader sb mode (groups groups' : List Group) marked, groups.Perm groups' →
        (addGroups reader sb mode free groups).outcome = .ok marked →
          (addGroups reader sb mode free groups').outcome = .ok marked := by
  refine ⟨reconciles h, ?_, fun groups groups' hperm => markGroups_perm h hperm,
    fun reader sb mode groups groups' marked hperm => addGroups_perm h hperm⟩
  intro ag base records records' recorded hperm
  have hsum : recordTotal records = recordTotal records' := by
    rw [recordTotal_eq_sum, recordTotal_eq_sum, (hperm.map FreeRecord.count).sum_eq]
  rw [reconcileGroup, reconcileGroup, markAll_perm h base hperm, hsum]

/-- Two records of a group from block 8 on, which both have block 10. -/
def overlapping : List FreeRecord := [⟨0, 3⟩, ⟨2, 2⟩]

/-- Their counts agree with the recorded one, but only four blocks are newly marked. -/
theorem overlapping_accounts :
    (Bitmap.blank 16).WellFormed ∧ Reconciles (Bitmap.blank 16) 1 8 overlapping 5 ∧
      (reconcileGroup (Bitmap.blank 16) 1 8 overlapping 5).2 = .ok 5 ∧
        ¬ AllFresh (Bitmap.blank 16) 8 overlapping := by
  have hwf := Bitmap.wellFormed_blank 16
  have hreconciles := (reconcileGroup_accounts hwf).1 1 8 overlapping 5
  refine ⟨hwf, hreconciles, (hreconciles.ok_iff 5).2 ⟨rfl, rfl⟩, ?_⟩
  rw [← hreconciles.newly_eq_iff]
  decide +kernel

end DiskScope.Xfs
