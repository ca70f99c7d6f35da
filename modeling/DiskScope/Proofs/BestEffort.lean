/-
  DiskScope/Proofs/BestEffort.lean --- what a lenient run hides, and what it cannot.

  WHAT THIS FILE IS FOR.  Leniency must not change what is read, only how far reading
  gets.  Every computation that takes a mode is shown to be one computation with two
  runs: loading a filesystem, walking its trees of free space, and following a chain of
  partitions.  Each lemma goes down the lines of one definition.

  MAIN STATEMENT.  `lenient_foretells_strict`: from the log of a lenient run it can be told
  whether the strict run would have failed, and with which fault; and what the strict
  run answers, the lenient one answers too.
-/
import DiskScope.Proofs.Traced.Leniency
import DiskScope.Xfs.Volume
import DiskScope.Partition.Chain

set_option autoImplicit false

namespace DiskScope

open Traced

namespace Xfs

/-! ## The superblock -/

namespace Superblock

/-- Each pair of a size and its logarithm is one check, in the order of the list. -/
theorem checkPairs_mirrors (location : String) (pairs : List SizePair) :
    Mirrors id (checkPairs location .strict pairs) (checkPairs location .bestEffort pairs) := by
  induction pairs with
  | nil => exact .pure ()
  | cons pair rest ih =>
    apply (Mirrors.tolerateCheck _).bind
    intro _
    exact ih

/-- A wrong magic fails both runs, so there is nothing to foretell. -/
theorem validate_mirrors (sb : Superblock) (location : String) :
    Mirrors id (sb.validate location .strict) (sb.validate location .bestEffort) := by
  unfold validate
  split
  · exact checkPairs_mirrors location _
  · exact .fail _

/-- A lenient run goes on with fewer blocks; the strict run has failed there. -/
theorem clampBlocks_mirrors (sb : Superblock) (location : String) (imageSize : Nat) :
    Mirrors id (sb.clampBlocks location imageSize .strict)
      (sb.clampBlocks location imageSize .bestEffort) := by
  unfold clampBlocks
  dsimp only
  split
  · exact .pure sb
  · apply (Mirrors.letPass _).bind
    intro _
    apply (Mirrors.note (plain_decimal _ _)).bind
    intro _
    exact .pure _

theorem fit_mirrors (sb : Superblock) (location : String) (imageSize : Nat) :
    Mirrors id (sb.fit location imageSize .strict) (sb.fit location imageSize .bestEffort) := by
  apply (Mirrors.lift _).bind
  intro _
  apply (Mirrors.lift _).bind
  intro _
  apply (clampBlocks_mirrors sb location imageSize).bind
  intro fitted
  apply (Mirrors.lift _).bind
  intro _
  exact .pure fitted

end Superblock

/-! ## The groups -/

namespace Group

/-- The checks of a copy are tolerated as a whole, after each of them has been on its own. -/
theorem loadCopy_mirrors (sb : Superblock) (agno : Nat) (data : Bytes) :
    Mirrors id (loadCopy sb agno .strict data) (loadCopy sb agno .bestEffort data) := by
  unfold loadCopy
  split
  · rename_i copy _
    apply (copy.validate_mirrors _).tolerate.bind
    intro _
    exact .pure copy
  · apply (Mirrors.tolerateCheck _).bind
    intro _
    exact .pure sb

/-- A root block with another magic is an anomaly; one that cannot be read fails both runs. -/
theorem loadTree_mirrors (read : Nat → Except Fault Bytes) (sb : Superblock) (agno : Nat)
    (roots : PerTree Nat) (kind : TreeKind) :
    Mirrors id (loadTree read sb agno .strict roots kind)
      (loadTree read sb agno .bestEffort roots kind) := by
  unfold loadTree
  split
  · apply (Mirrors.debug _).bind
    intro _
    exact .pure none
  · apply (Mirrors.lift _).bind
    intro data
    apply (Mirrors.lift _).bind
    intro _
    dsimp only
    split
    · apply (Mirrors.debug _).bind
      intro _
      exact .pure (some data)
    · apply (Mirrors.tolerateCheck _).bind
      intro _
      exact .pure none

theorem noteSequence_mirrors (agno : Nat) (part : String) (present : Bool) (sequence : Nat) :
    Mirrors id (noteSequence agno part present sequence)
      (noteSequence agno part present sequence) := by
  unfold noteSequence
  split
  · exact .note (plain_decimal _ _)
  · exact .pure ()

theorem load_mirrors (reader : BlockReader) (sb : Superblock) (agno : Nat) :
    Mirrors id (load reader sb .strict agno) (load reader sb .bestEffort agno) := by
  unfold load
  dsimp only
  apply (Mirrors.debug _).bind
  intro _
  apply (Mirrors.lift _).bind
  intro headers
  apply (loadCopy_mirrors sb agno _).bind
  intro copy
  apply (Mirrors.tolerateCheck _).bind
  intro hasFreeHeader
  apply (Mirrors.tolerateCheck _).bind
  intro hasInodeHeader
  -- The free list is checked in a filesystem of version 5 only.
  apply (Mirrors.tolerateCheck _).when
  apply (Mirrors.lift _).bind
  intro freeHeader
  apply (Mirrors.lift _).bind
  intro inodeHeader
  apply (noteSequence_mirrors agno _ _ _).bind
  intro _
  apply (noteSequence_mirrors agno _ _ _).bind
  intro _
  apply (loadTree_mirrors reader.block sb agno _ .freeByBlock).bind
  intro freeByBlock
  apply (loadTree_mirrors reader.block sb agno _ .freeBySize).bind
  intro freeBySize
  apply (loadTree_mirrors reader.block sb agno _ .inodes).bind
  intro inodes
  apply (loadTree_mirrors reader.block sb agno _ .freeInodes).bind
  intro freeInodes
  apply (loadTree_mirrors reader.block sb agno _ .refcounts).bind
  intro refcounts
  exact .pure _

theorem loadFrom_mirrors (reader : BlockReader) (sb : Superblock) (count agno : Nat) :
    Mirrors id (loadFrom reader sb .strict count agno)
      (loadFrom reader sb .bestEffort count agno) := by
  induction count generalizing agno with
  | zero => exact .pure []
  | succ count ih =>
    apply (load_mirrors reader sb agno).bind
    intro group
    apply (ih (agno + 1)).bind
    intro rest
    exact .pure (group :: rest)

theorem loadAll_mirrors (reader : BlockReader) (sb : Superblock) :
    Mirrors id (loadAll reader sb .strict) (loadAll reader sb .bestEffort) := by
  apply (loadFrom_mirrors reader sb sb.agCount 0).bind
  intro groups
  apply (Mirrors.info _).bind
  intro _
  exact .pure groups

end Group

/-! ## Opening a filesystem -/

namespace Volume

/-- The volume as a strict run would have opened it. -/
def asStrict (volume : Volume) : Volume := { volume with mode := .strict }

theorem readSuperblock_mirrors (image : Image) :
    Mirrors id (readSuperblock image .strict) (readSuperblock image .bestEffort) := by
  apply (Mirrors.lift _).bind
  intro raw
  apply (Mirrors.lift _).bind
  intro sb
  apply (sb.validate_mirrors primary).bind
  intro _
  apply (Mirrors.lift _).bind
  intro _
  apply (Mirrors.lift _).bind
  intro _
  exact sb.fit_mirrors primary image.size

theorem detect_mirrors (image : Image) :
    Mirrors asStrict (detect image .strict) (detect image .bestEffort) := by
  apply (readSuperblock_mirrors image).bind
  intro sb
  apply (Mirrors.info _).bind
  intro _
  apply (Group.loadAll_mirrors _ sb).bind
  intro groups
  -- The volume remembers its mode, which is all that the two answers differ in.
  let lenient : Volume := { reader := ⟨image, sb.blockSize⟩, sb, groups, mode := .bestEffort }
  have hpure : Mirrors asStrict (pure lenient.asStrict) (pure lenient) := .pure lenient
  exact hpure

end Volume

/-! ## Free space -/

/-- Both runs visit the same blocks, up to the first child that belongs elsewhere. -/
theorem walkFreeTree_mirrors (read : Nat → Except Fault Bytes) (sb : Superblock) (group : Group)
    (budget : Nat) (stack : List Visit) :
    Mirrors id (walkFreeTree read sb group .strict budget stack)
      (walkFreeTree read sb group .bestEffort budget stack) := by
  induction budget generalizing stack with
  | zero =>
    cases stack with
    | nil => exact .pure []
    | cons visit stack =>
      apply (Mirrors.note (plain_append (by decide) (by decide))).bind
      intro _
      exact .pure []
  | succ budget ih =>
    cases stack with
    | nil => exact .pure []
    | cons visit stack =>
      apply (Mirrors.lift _).bind
      intro block
      apply (Mirrors.tolerateCheck _).bind
      intro fits
      split
      · exact ih stack
      · split
        · apply (Mirrors.lift _).bind
          intro records
          apply (ih stack).bind
          intro rest
          exact .pure (records ++ rest)
        · apply (Mirrors.lift _).bind
          intro pointers
          apply (Mirrors.lift _).bind
          intro children
          exact ih _

/-- A tree that is missing and a count that differs are the anomalies of a group. -/
theorem addGroup_mirrors (reader : BlockReader) (sb : Superblock) (free : Bitmap) (group : Group) :
    Mirrors id (addGroup reader sb .strict free group)
      (addGroup reader sb .bestEffort free group) := by
  unfold addGroup
  split
  · apply (Mirrors.tolerateCheck _).bind
    intro _
    apply (Mirrors.note (plain_append (by decide) (by decide))).bind
    intro _
    exact .pure free
  · apply (walkFreeTree_mirrors reader.block sb group sb.agBlocks _).bind
    intro records
    dsimp only
    apply (Mirrors.tolerateCheck _).bind
    intro agrees
    apply (Mirrors.debug _).bind
    intro _
    exact .pure _

theorem addGroups_mirrors (reader : BlockReader) (sb : Superblock) (free : Bitmap)
    (groups : List Group) :
    Mirrors id (addGroups reader sb .strict free groups)
      (addGroups reader sb .bestEffort free groups) := by
  induction groups generalizing free with
  | nil => exact .pure free
  | cons group rest ih =>
    apply (addGroup_mirrors reader sb free group).bind
    intro marked
    exact ih marked

theorem usedRuns_mirrors (reader : BlockReader) (sb : Superblock) (groups : List Group) :
    Mirrors id (usedRuns reader sb groups .strict) (usedRuns reader sb groups .bestEffort) := by
  apply (addGroups_mirrors reader sb _ groups).bind
  intro free
  apply (Mirrors.info _).bind
  intro _
  exact .pure free.clearRuns

end Xfs

/-! ## Chains of partitions -/

namespace Partition

theorem noteLogical_mirrors (sector : Nat) (logical : Option Entry) :
    Mirrors id (noteLogical sector logical) (noteLogical sector logical) := by
  cases logical with
  | none => exact .pure ()
  | some entry => exact .debug _

/-- A lenient run takes a link without a signature for the end of the chain. -/
theorem followChain_mirrors (image : Image) (base fuel relative : Nat) :
    Mirrors id (followChain image base .strict fuel relative)
      (followChain image base .bestEffort fuel relative) := by
  induction fuel generalizing relative with
  | zero => exact .fail _
  | succ fuel ih =>
    apply (Mirrors.lift _).bind
    intro data
    split
    · apply (Mirrors.tolerateCheck _).bind
      intro _
      exact .pure []
    · rename_i entries _
      apply (noteLogical_mirrors _ _).bind
      intro _
      split
      · exact .pure _
      · rename_i link _
        apply (ih link.start).bind
        intro rest
        exact .pure _

end Partition

/-- What a lenient run lets pass is what the strict one fails for: of opening a filesystem, finding
its used runs and following a chain of partitions, the log of the lenient run tells the outcome of
the strict one. -/
theorem lenient_foretells_strict :
    (∀ image : Image,
      Foretells Xfs.Volume.asStrict (Xfs.Volume.detect image .bestEffort)
        (Xfs.Volume.detect image .strict)) ∧
    (∀ (reader : BlockReader) (sb : Xfs.Superblock) (groups : List Xfs.Group),
      Foretells id (Xfs.usedRuns reader sb groups .bestEffort)
        (Xfs.usedRuns reader sb groups .strict)) ∧
    (∀ (image : Image) (base : Nat),
      Foretells id (Partition.walkChain image base .bestEffort)
        (Partition.walkChain image base .strict)) := by
  refine ⟨?_, ?_, ?_⟩
  · intro image
    exact (Xfs.Volume.detect_mirrors image).foretells
  · intro reader sb groups
    exact (Xfs.usedRuns_mirrors reader sb groups).foretells
  · intro image base
    exact (Partition.followChain_mirrors image base _ 0).foretells

end DiskScope
