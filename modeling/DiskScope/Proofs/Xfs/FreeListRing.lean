/-
  DiskScope/Proofs/Xfs/FreeListRing.lean --- the free list of a group, read around its ring.

  WHAT THIS FILE IS FOR.  The free list of a group is a row of slots in one sector, of which some
  are in use.  The header says in which slot the part in use begins, in which it ends, and how
  many slots it has; behind the last slot it goes on in the first.  Nothing keeps the three
  numbers in bounds or in step.  Here the slots are put in a ring that is walked slot by slot
  (`Ring.next`), and the listing of a group is shown to be that walk, whatever the numbers.

  WHEN THE NUMBERS AGREE.  A walk that is no longer than the ring comes to no slot twice.  If the
  slot that the header calls the last is where the walk ends, then the slots that were visited
  are those of the arc between the two ends (`Ring.OnArc`), which is said without a walk.

  MAIN STATEMENTS.

      Ring.iterate_next           walking is adding, up to the size of the ring
      Ring.nodup_walk             no slot is visited twice in one round
      Ring.mem_walk_iff           the slots of a walk are those of its arc
      Group.freeList_selected    all of it, for the listing of any group
-/
import DiskScope.Proofs.Bytes.Pieces
import DiskScope.Xfs.Group
import Mathlib.Data.List.Iterate
import Mathlib.Data.List.Nodup

set_option autoImplicit false

namespace DiskScope.Xfs

/-! ## Rings -/

namespace Ring

variable {size first last count slot : Nat}

/-- The slot behind another one in a ring of `size` slots. -/
def next (size slot : Nat) : Nat := if slot + 1 = size then 0 else slot + 1

/-- The slots of a walk of `count` steps from the slot that `first` comes to. -/
def walk (size first count : Nat) : List Nat := List.iterate (next size) (first % size) count

/-- The slot is one of those from `first` to `last`, on the way that leads over the end of the row
if `last` is in front of `first`. -/
def OnArc (size first last slot : Nat) : Prop :=
  slot < size ∧ if first ≤ last then first ≤ slot ∧ slot ≤ last else first ≤ slot ∨ slot ≤ last

instance : Decidable (OnArc size first last slot) := inferInstanceAs (Decidable (_ ∧ _))

/-- Fewer steps than the ring has slots lead over the end of the row at most once. -/
theorem add_mod_eq_ite {i : Nat} (hi : i < size) (first : Nat) :
    (first + i) % size =
      if first % size + i < size then first % size + i else first % size + i - size := by
  have hfirst : first % size < size := Nat.mod_lt first (by omega)
  rw [← Nat.mod_add_mod]
  split
  · rename_i hinside
    exact Nat.mod_eq_of_lt hinside
  · rename_i hover
    rw [Nat.mod_eq_sub_mod (by omega), Nat.mod_eq_of_lt (by omega)]

theorem next_mod (hsize : 0 < size) (n : Nat) : next size (n % size) = (n + 1) % size := by
  have hlt : n % size < size := Nat.mod_lt n hsize
  rw [next, ← Nat.mod_add_mod n size 1]
  split
  · rename_i hend
    rw [hend, Nat.mod_self]
  · rename_i hinside
    exact (Nat.mod_eq_of_lt (by omega)).symm

theorem iterate_next (hsize : 0 < size) (first i : Nat) :
    (next size)^[i] (first % size) = (first + i) % size := by
  -- The walk is taken apart at its end, where `next_mod` says what one more step does.
  induction i with
  | zero => rfl
  | succ i ih => rw [Function.iterate_succ_apply', ih, next_mod hsize, Nat.add_assoc]

theorem walk_eq_map (hsize : 0 < size) (first count : Nat) :
    walk size first count = (List.range count).map fun i => (first + i) % size := by
  rw [walk, ← List.range_map_iterate]
  exact List.map_congr_left fun i _ => iterate_next hsize first i

@[simp] theorem length_walk (size first count : Nat) : (walk size first count).length = count :=
  List.length_iterate _ _ _

theorem getElem?_walk {i : Nat} (hsize : 0 < size) (hi : i < count) :
    (walk size first count)[i]? = some ((first + i) % size) := by
  rw [walk_eq_map hsize, List.getElem?_map, List.getElem?_range hi, Option.map_some]

theorem mem_walk (hsize : 0 < size) :
    slot ∈ walk size first count ↔ ∃ i < count, (first + i) % size = slot := by
  simp [walk_eq_map hsize]

theorem nodup_walk (hsize : 0 < size) (hround : count ≤ size) : (walk size first count).Nodup := by
  rw [walk_eq_map hsize]
  refine List.Nodup.map_on (fun i hi j hj hsame => ?_) List.nodup_range
  have hi := Nat.lt_of_lt_of_le (List.mem_range.1 hi) hround
  have hj := Nat.lt_of_lt_of_le (List.mem_range.1 hj) hround
  -- Two numbers of steps with the same end would differ by a whole round.
  rw [add_mod_eq_ite hi, add_mod_eq_ite hj] at hsame
  split at hsame <;> split at hsame <;> omega

/-- The slots of a walk of at most one round are those of its arc. -/
theorem mem_walk_iff (hcount : 0 < count) (hround : count ≤ size) :
    slot ∈ walk size first count ↔
      OnArc size (first % size) ((first + (count - 1)) % size) slot := by
  have hsize : 0 < size := by omega
  have hfirst : first % size < size := Nat.mod_lt first hsize
  have hstep : ∀ i < count, (first + i) % size =
      if first % size + i < size then first % size + i else first % size + i - size :=
    fun i hi => add_mod_eq_ite (Nat.lt_of_lt_of_le hi hround) first
  rw [mem_walk hsize, OnArc, hstep (count - 1) (by omega)]
  constructor
  · rintro ⟨i, hi, rfl⟩
    rw [hstep i hi]
    split <;> split <;> split <;> omega
  · rintro ⟨hslot, harc⟩
    -- The way from the beginning to the slot is straight, or leads over the end of the row.
    rcases Nat.lt_or_ge slot (first % size) with hbefore | hbehind
    · have hi : slot + size - first % size < count := by
        split at harc <;> split at harc <;> omega
      refine ⟨_, hi, ?_⟩
      rw [hstep _ hi, if_neg (by omega)]
      omega
    · have hi : slot - first % size < count := by
        split at harc <;> split at harc <;> omega
      refine ⟨_, hi, ?_⟩
      rw [hstep _ hi, if_pos (by omega)]
      omega

end Ring

/-! ## Slots -/

namespace FreeList

variable {sector : Bytes} {isV5 : Bool} {slot : Nat}

/-- Where the slots begin: behind a head of 36 bytes, from version 5 on. -/
def start (isV5 : Bool) : Nat := if isV5 then 36 else 0

/-- How many whole slots the sector has. -/
def slotCount (sector : Bytes) (isV5 : Bool) : Nat := (sector.length - start isV5) / 4

/-- The block number in a slot, if all of it is in the sector. -/
def block? (sector : Bytes) (isV5 : Bool) (slot : Nat) : Option Nat :=
  if start isV5 + 4 * slot + 4 ≤ sector.length then
    some (sector.be32 (start isV5 + 4 * slot))
  else none

theorem block?_of_lt (h : slot < slotCount sector isV5) :
    block? sector isV5 slot = some (sector.be32 (start isV5 + 4 * slot)) := by
  unfold slotCount at h
  exact if_pos (by omega)

theorem length_freeListSlots (sector : Bytes) (isV5 : Bool) :
    (Structure.freeListSlots sector isV5).length = slotCount sector isV5 := by
  rw [Structure.freeListSlots, List.length_map, Bytes.wholePieces, Bytes.length_cut,
    List.length_drop]
  rfl

theorem getElem?_freeListSlots (h : slot < slotCount sector isV5) :
    (Structure.freeListSlots sector isV5)[slot]? = block? sector isV5 slot := by
  have hstart : Structure.freeListOffset isV5 = start isV5 := rfl
  have hpiece : slot < (sector.drop (start isV5)).length / 4 := by rwa [List.length_drop]
  rw [block?_of_lt h, Structure.freeListSlots, List.getElem?_map, Bytes.wholePieces, hstart,
    Bytes.getElem?_cut _ hpiece, Bytes.slice_drop, Nat.mul_comm slot]
  rfl

theorem mapM_block? {slots : List Nat} (h : ∀ slot ∈ slots, slot < slotCount sector isV5) :
    slots.mapM (block? sector isV5) =
      some (slots.map fun slot => sector.be32 (start isV5 + 4 * slot)) := by
  induction slots with
  | nil => rfl
  | cons slot rest ih =>
    obtain ⟨hslot, hrest⟩ := List.forall_mem_cons.1 h
    rw [List.mapM_cons, block?_of_lt hslot, ih hrest]
    rfl

/-! ## The listing -/

/-- `listed` is what a header with these numbers selects from the slots of the sector. -/
structure Selects (sector : Bytes) (isV5 : Bool) (first last count : Nat) (listed : List Nat) :
    Prop where
  /-- Without slots, or with none in use, nothing is listed. -/
  listed_eq_nil : slotCount sector isV5 = 0 ∨ count = 0 → listed = []
  /-- Otherwise as many blocks are listed as are counted, -/
  length_eq : 0 < slotCount sector isV5 → listed.length = count
  /-- each of them from a slot that there is, -/
  getElem?_eq : 0 < slotCount sector isV5 → ∀ i < count, ∃ block,
    block? sector isV5 ((first + i) % slotCount sector isV5) = some block ∧ listed[i]? = some block
  /-- and together they are what a walk around the ring reads, which always stays inside. -/
  walk_eq : 0 < slotCount sector isV5 →
    (Ring.walk (slotCount sector isV5) first count).mapM (block? sector isV5) = some listed
  /-- In one round no slot is read twice. -/
  walk_nodup : 0 < slotCount sector isV5 → count ≤ slotCount sector isV5 →
    (Ring.walk (slotCount sector isV5) first count).Nodup
  /-- If the header says where such a walk ends, the last block is from that slot, -/
  getLast?_eq : 0 < count → count ≤ slotCount sector isV5 →
    last = (first + count - 1) % slotCount sector isV5 →
    ∃ block, block? sector isV5 last = some block ∧ listed.getLast? = some block
  /-- and the slots from the first to the last are read once, all others never. -/
  count_walk : 0 < count → count ≤ slotCount sector isV5 →
    last = (first + count - 1) % slotCount sector isV5 →
    ∀ slot, (Ring.walk (slotCount sector isV5) first count).count slot =
      if Ring.OnArc (slotCount sector isV5) (first % slotCount sector isV5) last slot then 1 else 0

end FreeList

namespace Group

open FreeList

variable {group : Group} {isV5 : Bool}

theorem freeList_of_no_slots (h : slotCount group.freeListRaw isV5 = 0) :
    group.freeList isV5 = [] := by
  have hempty : Structure.freeListSlots group.freeListRaw isV5 = [] :=
    List.eq_nil_of_length_eq_zero ((length_freeListSlots _ _).trans h)
  simp [freeList, hempty]

theorem freeList_of_none_used (h : group.freeHeader.listCount = 0) : group.freeList isV5 = [] := by
  simp [freeList, h]

/-- The listing is a walk around the ring. -/
theorem freeList_of_slots (h : 0 < slotCount group.freeListRaw isV5) :
    group.freeList isV5 =
      (Ring.walk (slotCount group.freeListRaw isV5) group.freeHeader.listFirst
        group.freeHeader.listCount).map fun slot =>
          group.freeListRaw.be32 (start isV5 + 4 * slot) := by
  have hsome : (Structure.freeListSlots group.freeListRaw isV5).isEmpty = false := by
    rw [← Bool.not_eq_true, List.isEmpty_iff_length_eq_zero, length_freeListSlots]
    omega
  simp only [freeList, hsome, Bool.false_eq_true, if_false, length_freeListSlots]
  rw [Ring.walk_eq_map h, List.map_map]
  refine List.map_congr_left fun i _ => ?_
  have hslot : (group.freeHeader.listFirst + i) % slotCount group.freeListRaw isV5 <
      slotCount group.freeListRaw isV5 := Nat.mod_lt _ h
  rw [List.getD_eq_getElem?_getD, getElem?_freeListSlots hslot, block?_of_lt hslot]
  rfl

theorem length_freeList (h : 0 < slotCount group.freeListRaw isV5) :
    (group.freeList isV5).length = group.freeHeader.listCount := by
  rw [freeList_of_slots h, List.length_map, Ring.length_walk]

/-- Each block of the listing is that of a slot that there is. -/
theorem getElem?_freeList {i : Nat} (h : 0 < slotCount group.freeListRaw isV5)
    (hi : i < group.freeHeader.listCount) :
    ∃ block, block? group.freeListRaw isV5
        ((group.freeHeader.listFirst + i) % slotCount group.freeListRaw isV5) = some block ∧
      (group.freeList isV5)[i]? = some block := by
  refine ⟨_, block?_of_lt (Nat.mod_lt _ h), ?_⟩
  rw [freeList_of_slots h, List.getElem?_map, Ring.getElem?_walk h hi]
  rfl

/-- The free list of a group is read around the ring of its slots, whatever its header says. -/
theorem freeList_selected (group : Group) (isV5 : Bool) :
    Selects group.freeListRaw isV5 group.freeHeader.listFirst group.freeHeader.listLast
      group.freeHeader.listCount (group.freeList isV5) where
  listed_eq_nil h := h.elim freeList_of_no_slots freeList_of_none_used
  length_eq h := length_freeList h
  getElem?_eq h i hi := getElem?_freeList h hi
  walk_eq h := by
    rw [freeList_of_slots h]
    refine mapM_block? fun slot hslot => ?_
    obtain ⟨i, -, rfl⟩ := (Ring.mem_walk h).1 hslot
    exact Nat.mod_lt _ h
  walk_nodup h hround := Ring.nodup_walk h hround
  getLast?_eq hcount hround hlast := by
    have hslots : 0 < slotCount group.freeListRaw isV5 := Nat.lt_of_lt_of_le hcount hround
    rw [hlast, Nat.add_sub_assoc hcount, List.getLast?_eq_getElem?, length_freeList hslots]
    exact getElem?_freeList hslots (Nat.sub_lt hcount Nat.one_pos)
  count_walk hcount hround hlast slot := by
    have hslots : 0 < slotCount group.freeListRaw isV5 := Nat.lt_of_lt_of_le hcount hround
    rw [(Ring.nodup_walk hslots hround).count, hlast, Nat.add_sub_assoc hcount]
    exact if_congr (Ring.mem_walk_iff hcount hround) rfl rfl

/-- A free list with five slots and half of a sixth, of which four are in use: from the fourth on,
over the end of the row, to the second.  The first slot is counted on from beyond the end. -/
def wrappedList : Group :=
  { (default : Group) with
    freeListRaw :=
      List.replicate 36 0xFF ++ [10, 11, 12, 13, 14].flatMap (Bytes.ofNatBE 4) ++ [0, 0]
    freeHeader := { FreeHeader.zero with listFirst := 8, listLast := 1, listCount := 4 } }

/-- The listing wraps around at the last whole slot, and leaves out the third. -/
theorem wrappedList_selected :
    slotCount wrappedList.freeListRaw true = 5 ∧ 1 = (8 + 4 - 1) % 5 ∧
      wrappedList.freeList true = [13, 14, 10, 11] ∧
      Selects wrappedList.freeListRaw true 8 1 4 (wrappedList.freeList true) ∧
      (Ring.walk 5 8 4).count 1 = 1 ∧ (Ring.walk 5 8 4).count 2 = 0 := by
  have hselected := freeList_selected wrappedList true
  have honce := hselected.count_walk (by decide) (by decide) (by decide)
  exact ⟨by decide, by decide, by decide, hselected, honce 1, honce 2⟩

end Group

end DiskScope.Xfs
