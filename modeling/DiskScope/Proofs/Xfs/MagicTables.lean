/-
  DiskScope/Proofs/Xfs/MagicTables.lean --- five tables that classify the same bytes.

  WHAT THIS FILE IS FOR.  The first bytes of a buffer are looked up in five places: in the table of
  structures, in its list of tree blocks, in the magics that each tree of a group accepts,
  in the magics that say what the leaves of a tree hold, and in those of headers with
  checksums.  The tables were written apart, so one missing or exchanged entry in one of
  them would make a block count as one thing here and as another there.

  HOW.  Recognition looks at four bytes at most, and a structure with a magic of four bytes is
  recognised exactly where the first word is that magic.  Every other table turns out to
  hold the words of some structures (`word_mem_iff`), the same ones that the names and the
  descriptions of the first table tell.

  MAIN STATEMENTS.

      unambiguous           at most one structure, in any order, told by four bytes at most
      tablesAgree           what the tables of trees say is what recognition says
      magics_dispatched     both, for every buffer
-/
import DiskScope.Proofs.Xfs.FreeTree
import DiskScope.Proofs.Xfs.Recognition
import Mathlib.Data.List.Nodup

set_option autoImplicit false

namespace DiskScope.Xfs

variable {data other : Bytes} {kind : Structure}

/-! ## What recognition looks at -/

namespace LeadingMagic

variable {magic : LeadingMagic}

theorem leads_congr {len : Nat} (hsize : magic.size ≤ len) (h : data.take len = other.take len) :
    magic.leads data = magic.leads other := by
  have hhead : data.take magic.size = other.take magic.size := by
    rw [← Nat.min_eq_left hsize, ← List.take_take, ← List.take_take, h]
  simp only [leads, hhead]

theorem size_le_of_leads (h : magic.leads data = true) : magic.size ≤ data.length :=
  (leads_iff.1 h).1

end LeadingMagic

namespace Structure

theorem magic_size_bounds (kind : Structure) : 2 ≤ kind.magic.size ∧ kind.magic.size ≤ 4 := by
  cases kind <;> decide

theorem magic_size_eq_two (h : kind.magic.size < 4) : kind.magic.size = 2 := by
  cases hmagic : kind.magic with
  | four value => simp [hmagic, LeadingMagic.size] at h
  | two value => rfl

/-- Recognition does not go further than the longest magic that can match. -/
theorem identify_congr {len : Nat} (h : data.take len = other.take len)
    (hdata : ∀ kind : Structure, kind.magic.leads data = true → kind.magic.size ≤ len)
    (hother : ∀ kind : Structure, kind.magic.leads other = true → kind.magic.size ≤ len) :
    identify data = identify other := by
  refine Option.ext fun kind => ?_
  rw [identify_eq_some_iff, identify_eq_some_iff]
  constructor
  · intro hleads
    rw [← LeadingMagic.leads_congr (hdata kind hleads) h]
    exact hleads
  · intro hleads
    rw [LeadingMagic.leads_congr (hother kind hleads) h]
    exact hleads

theorem magic_size_of_short (hlen : data.length < 4) (h : kind.magic.leads data = true) :
    kind.magic.size = 2 :=
  magic_size_eq_two (Nat.lt_of_le_of_lt (LeadingMagic.size_le_of_leads h) hlen)

theorem length_matches_le (data : Bytes) :
    (all.filter fun kind => kind.magic.leads data).length ≤ 1 := by
  have hnodup : (all.filter fun kind => kind.magic.leads data).Nodup :=
    List.Nodup.filter _ (by decide)
  have hleads : ∀ kind ∈ all.filter fun kind => kind.magic.leads data,
      kind.magic.leads data = true := fun kind hkind => (List.mem_filter.1 hkind).2
  -- Two entries that match are the same one, so a second one would be a repetition.
  cases hmatches : all.filter fun kind => kind.magic.leads data with
  | nil => simp
  | cons first rest =>
    cases rest with
    | nil => simp
    | cons second rest =>
      rw [hmatches] at hnodup hleads
      have heq : first = second := eq_of_leads (hleads first (by simp)) (hleads second (by simp))
      simp [heq] at hnodup

/-- How far a buffer is looked at, and that the answer does not hang on the order of the table. -/
structure Unambiguous (data : Bytes) : Prop where
  /-- At most one entry matches. -/
  one_entry : (all.filter fun kind => kind.magic.leads data).length ≤ 1
  /-- The same entries in another order give the same answer. -/
  any_order : ∀ table : List Structure, table.Perm all →
    (table.find? fun kind => kind.magic.leads data) = identify data
  /-- Four bytes decide. -/
  first_four : ∀ other : Bytes, data.take 4 = other.take 4 → identify data = identify other
  /-- Where there are fewer, two do. -/
  first_two : data.length < 4 → ∀ other : Bytes, other.length < 4 →
    data.take 2 = other.take 2 → identify data = identify other
  /-- They can only be the magic of an inode or of a quota record. -/
  two_bytes : data.length < 4 → ∀ kind, identify data = some kind →
    kind.magic.size = 2 ∧ (kind = .inode ∨ kind = .quota)
  /-- Less than that is nothing. -/
  nothing : data.length < 2 → identify data = none

theorem unambiguous (data : Bytes) : Unambiguous data where
  one_entry := length_matches_le data
  any_order := fun table htable => by
    have hmem : ∀ kind, kind ∈ table := fun kind => htable.mem_iff.2 kind.mem_all
    exact Option.ext fun kind => (find?_eq_some_iff hmem).trans identify_eq_some_iff.symm
  first_four := fun other h =>
    identify_congr h (fun kind _ => kind.magic_size_bounds.2) fun kind _ => kind.magic_size_bounds.2
  first_two := fun hdata other hother h =>
    identify_congr h (fun _ hleads => Nat.le_of_eq (magic_size_of_short hdata hleads))
      fun _ hleads => Nat.le_of_eq (magic_size_of_short hother hleads)
  two_bytes := fun hdata kind hkind => by
    have hsize := magic_size_of_short hdata (identify_eq_some_iff.1 hkind)
    refine ⟨hsize, ?_⟩
    revert hsize
    cases kind <;> simp [magic, LeadingMagic.size]
  nothing := fun hdata => by
    refine Option.eq_none_iff_forall_ne_some.2 fun kind hkind => ?_
    have hsize := LeadingMagic.size_le_of_leads (identify_eq_some_iff.1 hkind)
    have hbound := kind.magic_size_bounds.1
    omega

/-! ## The tables of trees -/

/-- The words that the blocks of `kinds` begin with. -/
def words (kinds : List Structure) : List Nat := kinds.map fun kind => kind.magic.value

/-- The kinds of tree blocks, of which there are twelve. -/
def treeBlocks : List Structure := all.filter isTree

example : treeBlocks.length = 12 := by decide

/-- Whether the table of structures tells that a block of the kind has checksums: they are named in
its description, or the tree is one of the two that never go without. -/
def tellsChecksums (kind : Structure) : Bool :=
  "(crc)".toList.isSuffixOf kind.description.toList || kind == refcountTree
    || kind == reverseMapTree

/-- A buffer begins with one of these words exactly if it is recognised as one of these kinds. -/
theorem word_mem_iff {kinds : List Structure} (hfour : ∀ kind ∈ kinds, kind.magic.size = 4)
    (hlen : 4 ≤ data.length) :
    data.be32 0 ∈ words kinds ↔ ∃ kind ∈ kinds, identify data = some kind := by
  have hword : ∀ kind ∈ kinds, identify data = some kind ↔ kind.magic.value = data.be32 0 := by
    intro kind hkind
    rw [identify_eq_some_iff, LeadingMagic.leads_iff, hfour kind hkind, eq_comm]
    simp [hlen]
  rw [words, List.mem_map]
  constructor
  · rintro ⟨kind, hkind, hvalue⟩
    exact ⟨kind, hkind, (hword kind hkind).2 hvalue⟩
  · rintro ⟨kind, hkind, hidentify⟩
    exact ⟨kind, hkind, (hword kind hkind).1 hidentify⟩

theorem filter_tellsChecksums : all.filter tellsChecksums =
    [ freeByBlockCrc, freeBySizeCrc, inodeTreeCrc, freeInodeTreeCrc, refcountTree, reverseMapTree,
      extentMapTreeCrc ] := by
  decide

/-- The magics of headers with checksums are those of the kinds that tell of them. -/
theorem crcMagics_eq : crcMagics = words (all.filter tellsChecksums) := by
  rw [filter_tellsChecksums]
  rfl

/-- The magics with known contents are those of tree blocks. -/
theorem content_isSome_iff {magic : Nat} :
    (Content.ofMagic? magic).isSome = true ↔ magic ∈ words treeBlocks := by
  have hwords : words treeBlocks =
      [Magic.freeByBlock, Magic.freeByBlockCrc, Magic.freeBySize, Magic.freeBySizeCrc]
        ++ ([Magic.inodeTree, Magic.inodeTreeCrc, Magic.freeInodeTree, Magic.freeInodeTreeCrc]
        ++ ([Magic.refcountTree] ++ ([Magic.reverseMapTree]
        ++ [Magic.extentMapTree, Magic.extentMapTreeCrc]))) := rfl
  rw [hwords, Content.ofMagic?]
  simp only [List.mem_append, List.mem_singleton]
  -- Every branch but the last has contents, and is taken for the words of one part of the list.
  split_ifs <;> simp [*]

end Structure

/-- The kinds of blocks that a tree of a group consists of: plain ones and ones with checksums. -/
def TreeKind.blocks : TreeKind → List Structure
  | freeByBlock => [.freeByBlock, .freeByBlockCrc]
  | freeBySize => [.freeBySize, .freeBySizeCrc]
  | inodes => [.inodeTree, .inodeTreeCrc]
  | freeInodes => [.freeInodeTree, .freeInodeTreeCrc]
  | refcounts => [.refcountTree]

theorem TreeKind.magics_eq (tree : TreeKind) : tree.magics = Structure.words tree.blocks := by
  cases tree <;> rfl

namespace Structure

/-- What the tables of trees say of a buffer is what recognition says of it. -/
structure TablesAgree (data : Bytes) (block : TreeBlock) : Prop where
  /-- The leaves of a tree hold something known exactly if its blocks are recognised as a tree's. -/
  content : block.content?.isSome = true ↔ ∃ kind, identify data = some kind ∧ kind.isTree = true
  /-- The long header is the one of the kinds that tell of checksums. -/
  long_header : block.headerSize = 56 ↔
    ∃ kind, identify data = some kind ∧ kind.tellsChecksums = true
  /-- Every other header is short. -/
  short_header : block.headerSize = 56 ∨ block.headerSize = 16
  /-- A tree of a group accepts the blocks that are recognised as its own. -/
  accepted : ∀ tree : TreeKind, tree.accepts (data.be32 0) = true ↔
    ∃ kind ∈ tree.blocks, identify data = some kind

theorem exists_filter_iff {p : Structure → Bool} :
    (∃ kind ∈ all.filter p, identify data = some kind) ↔
      ∃ kind, identify data = some kind ∧ p kind = true := by
  simp [List.mem_filter, mem_all, and_comm]

theorem tablesAgree (hlen : 4 ≤ data.length) : TablesAgree data (TreeBlock.readHeader data) where
  content := by
    have hfour : ∀ kind ∈ treeBlocks, kind.magic.size = 4 := by decide
    rw [← exists_filter_iff, ← treeBlocks, ← word_mem_iff hfour hlen, ← content_isSome_iff]
    rfl
  long_header := by
    have hfour : ∀ kind ∈ all.filter tellsChecksums, kind.magic.size = 4 := by
      rw [filter_tellsChecksums]
      decide
    rw [← exists_filter_iff, ← word_mem_iff hfour hlen, ← crcMagics_eq]
    by_cases hmem : data.be32 0 ∈ crcMagics <;>
      simp [TreeBlock.headerSize, TreeBlock.hasCrc, TreeBlock.readHeader, hmem,
        TreeBlock.crcHeaderSize, TreeBlock.plainHeaderSize]
  short_header := by
    cases hcrc : (TreeBlock.readHeader data).hasCrc <;>
      simp [TreeBlock.headerSize, hcrc, TreeBlock.crcHeaderSize, TreeBlock.plainHeaderSize]
  accepted := fun tree => by
    have hfour : ∀ kind ∈ tree.blocks, kind.magic.size = 4 := by cases tree <;> decide
    rw [← word_mem_iff hfour hlen, ← tree.magics_eq]
    exact decide_eq_true_iff

/-! ## All tables -/

/-- Recognition of a buffer is unambiguous and told by its first bytes; of a buffer with room for every
header, all tables of trees say the same as recognition does. -/
theorem magics_dispatched (data : Bytes) :
    Unambiguous data ∧
      (56 ≤ data.length → ∃ block, TreeBlock.ofBytes data = .ok block ∧ TablesAgree data block) := by
  refine ⟨unambiguous data, fun hlen => ?_⟩
  have hagree : TablesAgree data (TreeBlock.readHeader data) := tablesAgree (by omega)
  have hheader := hagree.short_header
  exact ⟨_, TreeBlock.ofBytes_of_le (by omega), hagree⟩

/-- The header of an empty leaf with checksums, of the tree of free blocks by size. -/
def checkedLeaf : Bytes := [0x41, 0x42, 0x33, 0x43] ++ List.replicate 52 0

/-- It is what it is recognised as, for every table. -/
theorem checkedLeaf_dispatched :
    56 ≤ checkedLeaf.length ∧ identify checkedLeaf = some .freeBySizeCrc ∧
      ∃ block, TreeBlock.ofBytes checkedLeaf = .ok block ∧ block.content?.isSome = true ∧
        block.headerSize = 56 ∧ TreeKind.freeBySize.accepts (checkedLeaf.be32 0) = true ∧
        ¬ TreeKind.freeByBlock.accepts (checkedLeaf.be32 0) = true := by
  have hlen : 56 ≤ checkedLeaf.length := by simp [checkedLeaf]
  have hkind : identify checkedLeaf = some .freeBySizeCrc := by decide
  obtain ⟨block, hblock, hagree⟩ := (magics_dispatched checkedLeaf).2 hlen
  refine ⟨hlen, hkind, block, hblock, hagree.content.2 ⟨_, hkind, rfl⟩,
    hagree.long_header.2 ⟨_, hkind, by decide⟩,
    (hagree.accepted .freeBySize).2 ⟨_, by simp [TreeKind.blocks], hkind⟩, fun haccepts => ?_⟩
  obtain ⟨kind, hmem, hother⟩ := (hagree.accepted .freeByBlock).1 haccepts
  obtain rfl := Option.some.inj (hkind.symm.trans hother)
  simp [TreeKind.blocks] at hmem

end Structure

end DiskScope.Xfs
