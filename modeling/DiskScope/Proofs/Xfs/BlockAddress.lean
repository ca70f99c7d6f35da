/-
  DiskScope/Proofs/Xfs/BlockAddress.lean --- no block of a group is read in another's place.

  WHAT THIS FILE IS FOR.  In a strict run words are long enough for every block that a group can
  name (`Superblock.inWords_of_valid`).  Here it is said what follows for those who read such
  blocks: the loader of roots and the walk of free space do what they would do if numbers did
  not end, whatever the trees contain.

  HOW.  Both are given a way to read blocks.  They do the same with two ways that agree on the
  blocks they ask for, and these are counted with 32 bits (`loadTree_congr`,
  `walkFreeTree_congr`).

  MAIN STATEMENTS.

      computed_inWords        the sum and the product of words
      read_intended           the block that is meant, or a failed access
      strictly_addressable    all of it
-/
import DiskScope.Proofs.Xfs.ChildPointers
import DiskScope.Proofs.Xfs.FreeMap
import DiskScope.Proofs.Xfs.LoadedGroup

set_option autoImplicit false

namespace DiskScope

/-- What follows an untraced outcome only matters for the value that it has. -/
theorem Traced.lift_bind_congr {α β : Type} {run : Except Fault α} {next next' : α → Traced β}
    (h : ∀ a, run = .ok a → next a = next' a) :
    ((liftM run : Traced α) >>= next) = (liftM run >>= next') := by
  cases run with
  | error fault => rfl
  | ok a => rw [bind_of_ok rfl, bind_of_ok rfl, h a rfl]

namespace Xfs

/-! ## Reading blocks in two ways -/

section

variable {read read' : Nat → Except Fault Bytes} {sb : Superblock} {mode : Mode}

/-- Loading a tree reads its root block and no other. -/
theorem Group.loadTree_congr {agno : Nat} {roots : PerTree Nat} {kind : TreeKind}
    (h : read (agno * sb.agBlocks + roots.get kind) = read' (agno * sb.agBlocks + roots.get kind)) :
    loadTree read sb agno mode roots kind = loadTree read' sb agno mode roots kind := by
  unfold loadTree
  dsimp only [Superblock.groupBlock]
  rw [h]

theorem readChildren_congr {base : Nat} {pointers : List Nat}
    (h : ∀ pointer ∈ pointers, read (base + pointer) = read' (base + pointer)) :
    readChildren read base pointers = readChildren read' base pointers := by
  induction pointers with
  | nil => rfl
  | cons pointer rest ih =>
    obtain ⟨hpointer, hrest⟩ := List.forall_mem_cons.1 h
    rw [readChildren, readChildren, ih hrest, hpointer]

/-- Walking a tree reads blocks that 32 bits can name, whatever its blocks contain. -/
theorem walkFreeTree_congr {group : Group}
    (h : ∀ pointer < 2 ^ 32,
      read (group.index * sb.agBlocks + pointer) = read' (group.index * sb.agBlocks + pointer))
    (budget : Nat) (visits : List Visit) :
    walkFreeTree read sb group mode budget visits =
      walkFreeTree read' sb group mode budget visits := by
  induction budget generalizing visits with
  | zero => cases visits <;> rfl
  | succ budget ih =>
    cases visits with
    | nil => rfl
    | cons visit stack =>
      rw [walkFreeTree, walkFreeTree]
      refine bind_congr fun block => bind_congr fun fits => ?_
      simp only [ih]
      split
      · rfl
      split
      · rfl
      refine Traced.lift_bind_congr fun pointers hpointers => ?_
      rw [Group.baseBlock, readChildren_congr fun pointer hmem =>
        h pointer (TreeBlock.childPointers_lt hpointers pointer hmem)]

end

/-! ## Words -/

variable {image : Image} {sb : Superblock} {agno pointer : Nat}

/-- A machine computes the block and the place where it begins as they are. -/
theorem computed_inWords (h : sb.InWords agno pointer) :
    (UInt64.ofNat agno * UInt64.ofNat sb.agBlocks + UInt64.ofNat pointer).toNat =
        agno * sb.agBlocks + pointer ∧
      ((UInt64.ofNat agno * UInt64.ofNat sb.agBlocks + UInt64.ofNat pointer) *
          UInt64.ofNat sb.blockSize).toNat = (agno * sb.agBlocks + pointer) * sb.blockSize := by
  rw [← UInt64.ofNat_mul, ← UInt64.ofNat_add, ← UInt64.ofNat_mul]
  exact ⟨wrap_of_lt h.1, wrap_of_lt h.2⟩

/-- What a block of a group is read as. -/
theorem read_intended (hsize : 0 < sb.blockSize) (hword : sb.blockSize < UInt64.size)
    (h : sb.InWords agno pointer) :
    (agno * sb.agBlocks + pointer) * sb.blockSize + sb.blockSize ≤ image.size ∧
        BlockReader.block ⟨image, sb.blockSize⟩ (agno * sb.agBlocks + pointer) =
          .ok (image.bytesFrom ((agno * sb.agBlocks + pointer) * sb.blockSize) sb.blockSize) ∨
      ∃ fault, fault.isIo = true ∧
        BlockReader.block ⟨image, sb.blockSize⟩ (agno * sb.agBlocks + pointer) = .error fault := by
  have hblock : BlockReader.block ⟨image, sb.blockSize⟩ (agno * sb.agBlocks + pointer) =
      image.read ((agno * sb.agBlocks + pointer) * sb.blockSize) sb.blockSize :=
    BlockReader.block_eq_blockAt hword h.2
  rw [hblock]
  cases hread : image.read ((agno * sb.agBlocks + pointer) * sb.blockSize) sb.blockSize with
  | error fault => exact .inr ⟨fault, Image.isIo_of_read hread, rfl⟩
  | ok data =>
    obtain ⟨hinside, rfl⟩ := (Image.read_eq_ok_iff_of_pos hsize).1 hread
    exact .inl ⟨hinside, rfl⟩

/-- No block of a group is read in another's place. -/
structure Addressable (image : Image) (sb : Superblock) : Prop where
  /-- The block of the disk and the byte where it begins are words of 64 bits. -/
  words : ∀ agno < sb.agCount, ∀ pointer < 2 ^ 32,
    agno * sb.agBlocks + pointer < 2 ^ 64 ∧
      (agno * sb.agBlocks + pointer) * sb.blockSize < 2 ^ 64
  /-- Computed in words, they are the same. -/
  computed : ∀ agno < sb.agCount, ∀ pointer < 2 ^ 32,
    (UInt64.ofNat agno * UInt64.ofNat sb.agBlocks + UInt64.ofNat pointer).toNat =
        agno * sb.agBlocks + pointer ∧
      ((UInt64.ofNat agno * UInt64.ofNat sb.agBlocks + UInt64.ofNat pointer) *
          UInt64.ofNat sb.blockSize).toNat = (agno * sb.agBlocks + pointer) * sb.blockSize
  /-- The block that is meant is read, or reading fails. -/
  intended : ∀ agno < sb.agCount, ∀ pointer < 2 ^ 32,
    (agno * sb.agBlocks + pointer) * sb.blockSize + sb.blockSize ≤ image.size ∧
        BlockReader.block ⟨image, sb.blockSize⟩ (agno * sb.agBlocks + pointer) =
          .ok (image.bytesFrom ((agno * sb.agBlocks + pointer) * sb.blockSize) sb.blockSize) ∨
      ∃ fault, fault.isIo = true ∧
        BlockReader.block ⟨image, sb.blockSize⟩ (agno * sb.agBlocks + pointer) = .error fault
  /-- The roots that a group is loaded with have 32 bits. -/
  root_lt : ∀ mode agno group,
    (Group.load ⟨image, sb.blockSize⟩ sb mode agno).outcome = .ok group →
      ∀ kind, group.root kind < 2 ^ 32
  /-- Roots of 32 bits are loaded from where they are, however far away that is. -/
  loadTree_eq : ∀ agno < sb.agCount, ∀ mode roots kind, roots.get kind < 2 ^ 32 →
    Group.loadTree (BlockReader.block ⟨image, sb.blockSize⟩) sb agno mode roots kind =
      Group.loadTree (image.blockAt sb.blockSize) sb agno mode roots kind
  /-- So are the trees of free blocks walked, whatever their blocks contain. -/
  walkFreeTree_eq : ∀ group : Group, group.index < sb.agCount → ∀ mode budget visits,
    walkFreeTree (BlockReader.block ⟨image, sb.blockSize⟩) sb group mode budget visits =
      walkFreeTree (image.blockAt sb.blockSize) sb group mode budget visits
  /-- Every used run ends inside the image. -/
  usedRuns_inside : ∀ groups mode runs,
    (usedRuns ⟨image, sb.blockSize⟩ sb groups mode).outcome = .ok runs →
      ∀ run ∈ runs, (run.start + run.length) * sb.blockSize ≤ image.size

/-- A superblock that is valid and fits has its groups within reach of words. -/
theorem addressable_of_fitted {raw : Bytes} {disk : Superblock} (himage : image.size < 2 ^ 63)
    (hraw : Superblock.ofBytes raw = .ok disk) (hvalid : disk.Valid)
    (hfitted : disk.Fitted sb image.size) : Addressable image sb := by
  have hwords : ∀ agno < sb.agCount, ∀ pointer < 2 ^ 32, sb.InWords agno pointer :=
    fun agno hagno pointer hpointer =>
      Superblock.inWords_of_valid himage hraw hvalid hfitted hagno hpointer
  have hsame : sb.blockSize = disk.blockSize := by rw [hfitted.eq_held]
  have hsize : 0 < sb.blockSize := hsame ▸ hvalid.blockSize_pos
  have hword : sb.blockSize < UInt64.size :=
    Nat.lt_trans (hsame ▸ Superblock.blockSize_lt hraw) (by decide)
  have hblock : ∀ agno < sb.agCount, ∀ pointer < 2 ^ 32,
      BlockReader.block ⟨image, sb.blockSize⟩ (agno * sb.agBlocks + pointer) =
        image.blockAt sb.blockSize (agno * sb.agBlocks + pointer) :=
    fun agno hagno pointer hpointer =>
      BlockReader.block_eq_blockAt hword (hwords agno hagno pointer hpointer).2
  refine ⟨hwords, ?_, ?_, ?_, ?_, ?_, ?_⟩
  · intro agno hagno pointer hpointer
    exact computed_inWords (hwords agno hagno pointer hpointer)
  · intro agno hagno pointer hpointer
    exact read_intended hsize hword (hwords agno hagno pointer hpointer)
  · intro mode agno group hload kind
    rw [(Group.load_ok hload).root_eq kind]
    exact Group.rootIn_lt sb _ _ kind
  · intro agno hagno mode roots kind hroot
    exact Group.loadTree_congr (hblock agno hagno _ hroot)
  · intro group hindex mode budget visits
    exact walkFreeTree_congr (hblock group.index hindex) budget visits
  · intro groups mode runs hruns run hmem
    have hstop : run.start + run.length ≤ sb.blocks :=
      (usedRuns_separated hruns).stop_le
        (fun block hcovered => ((covered_usedRuns hruns block).1 hcovered).1) hmem
    exact Nat.le_trans (Nat.mul_le_mul_right _ hstop) hfitted.inside

/-- Words are long enough for every superblock that passes and fits in a strict run, wherever its
bytes come from; so they are for every volume that a strict run opens. -/
theorem strictly_addressable (image : Image) (himage : image.size < 2 ^ 63) :
    (∀ raw disk fitted location place, Superblock.ofBytes raw = .ok disk →
      (disk.validate location .strict).outcome = .ok () →
        (disk.fit place image.size .strict).outcome = .ok fitted → Addressable image fitted) ∧
    ∀ volume, (Volume.detect image .strict).outcome = .ok volume → Addressable image volume.sb := by
  have hfirst : ∀ raw disk fitted location place, Superblock.ofBytes raw = .ok disk →
      (disk.validate location .strict).outcome = .ok () →
        (disk.fit place image.size .strict).outcome = .ok fitted → Addressable image fitted := by
    intro raw disk fitted location place hraw hpasses hfits
    have hvalid := Superblock.valid_of_validate hpasses
    exact addressable_of_fitted himage hraw hvalid
      (Superblock.fitted_of_ok hvalid.blockSize_pos hfits)
  refine ⟨hfirst, fun volume hopen => ?_⟩
  obtain ⟨raw, disk, -, hraw, hpasses, -, -, hfits⟩ :=
    Volume.readSuperblock_ok (Volume.detect_ok hopen).1
  exact hfirst raw disk volume.sb _ _ hraw hpasses hfits

/-- In the second group of the twin image the last count of 32 bits leads nowhere, rather than around
to a block that is there. -/
theorem twinImage_addressable :
    Volume.twinImage.size < 2 ^ 63 ∧
      ∃ volume, (Volume.detect Volume.twinImage .strict).outcome = .ok volume ∧
        Addressable Volume.twinImage volume.sb ∧
          ∃ fault, fault.isIo = true ∧
            BlockReader.block ⟨Volume.twinImage, volume.sb.blockSize⟩
              (1 * volume.sb.agBlocks + (2 ^ 32 - 1)) = .error fault := by
  have hopens : ((Volume.detect Volume.twinImage .strict).outcome.toOption.map fun volume =>
      (volume.sb.agCount, volume.sb.agBlocks, volume.sb.blockSize)) = some (2, 8, 512) := by
    decide +kernel
  obtain ⟨volume, hopen, hfacts⟩ := Except.exists_of_toOption_map hopens
  obtain ⟨hcount, hgeometry⟩ := Prod.mk.inj hfacts
  obtain ⟨hblocks, hsize⟩ := Prod.mk.inj hgeometry
  have himage : Volume.twinImage.size < 2 ^ 63 := by decide
  have haddressable := (strictly_addressable Volume.twinImage himage).2 volume hopen
  refine ⟨himage, volume, hopen, haddressable, ?_⟩
  rcases haddressable.intended 1 (by rw [hcount]; decide) (2 ^ 32 - 1) (by decide) with
    ⟨hinside, -⟩ | hfails
  · rw [hblocks, hsize] at hinside
    exact absurd hinside (by decide)
  · exact hfails

end Xfs

end DiskScope
