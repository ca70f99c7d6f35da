/-
  DiskScope/Proofs/Bytes/Slots.lean --- numbers written over a buffer.

  WHAT THIS FILE IS FOR.  A record on disk is a table: for each field an offset, a width and a
  number.  Writing a record overwrites those places in whatever the buffer held before
  (`fill`), one after the other.  A later number spoils an earlier one if their places
  overlap, so the table has to keep its places apart; then every number is read back.

  MAIN STATEMENTS.

      reads_fill       numbers that fit, in places apart, are all read back
      Reads.append     whatever stands behind the buffer
      Reads.fill_eq    numbers that are read are there already
-/
import DiskScope.Proofs.Bytes.Holds

set_option autoImplicit false

namespace DiskScope.Bytes

variable {data bytes other : Bytes} {off off' : Nat}

/-! ## Overwriting -/

/-- The string with `bytes` in the place of what stood at `off`. -/
def overwrite (data : Bytes) (off : Nat) (bytes : Bytes) : Bytes :=
  data.take off ++ bytes ++ data.drop (off + bytes.length)

theorem length_overwrite (h : off + bytes.length ≤ data.length) :
    (data.overwrite off bytes).length = data.length := by
  simp only [overwrite, List.length_append, List.length_take, List.length_drop]
  omega

theorem holds_overwrite (h : off + bytes.length ≤ data.length) :
    (data.overwrite off bytes).Holds off bytes := by
  refine ⟨by rwa [length_overwrite h], ?_⟩
  have hfront : (data.take off).length = off := List.length_take_of_le (by omega)
  rw [overwrite, slice, List.append_assoc, List.drop_left' hfront, List.take_left' rfl]

/-- The bytes outside the place stay. -/
theorem getElem?_overwrite (hinside : off + bytes.length ≤ data.length) {i : Nat}
    (hapart : i < off ∨ off + bytes.length ≤ i) : (data.overwrite off bytes)[i]? = data[i]? := by
  have hfront : (data.take off).length = off := List.length_take_of_le (by omega)
  rw [overwrite, List.append_assoc]
  rcases hapart with hbefore | hbehind
  · rw [List.getElem?_append_left (by omega), List.getElem?_take_of_lt hbefore]
  · rw [List.getElem?_append_right (by omega), List.getElem?_append_right (by omega),
      List.getElem?_drop]
    congr 1
    omega

theorem holds_iff_getElem? :
    data.Holds off bytes ↔ off + bytes.length ≤ data.length ∧
      ∀ i, i < bytes.length → data[off + i]? = bytes[i]? := by
  refine and_congr_right fun hlen => ?_
  rw [slice]
  constructor
  · intro hslice i hi
    have hbyte := congrArg (fun taken => taken[i]?) hslice
    rwa [List.getElem?_take_of_lt hi, List.getElem?_drop] at hbyte
  · intro hbytes
    refine List.ext_getElem? fun i => ?_
    rcases Nat.lt_or_ge i bytes.length with hi | hi
    · rw [List.getElem?_take_of_lt hi, List.getElem?_drop, hbytes i hi]
    · rw [List.getElem?_eq_none hi, List.getElem?_eq_none]
      rw [List.length_take]
      omega

theorem Holds.overwrite (h : data.Holds off bytes) (hinside : off' + other.length ≤ data.length)
    (hapart : off + bytes.length ≤ off' ∨ off' + other.length ≤ off) :
    (data.overwrite off' other).Holds off bytes := by
  obtain ⟨hlen, hbytes⟩ := holds_iff_getElem?.1 h
  refine holds_iff_getElem?.2 ⟨by rwa [length_overwrite hinside], fun i hi => ?_⟩
  rw [getElem?_overwrite hinside (by omega), hbytes i hi]

/-- Writing what stands there already changes nothing. -/
theorem Holds.overwrite_eq (h : data.Holds off bytes) : data.overwrite off bytes = data := by
  have hslice : (data.drop off).take bytes.length = bytes := h.2
  have hbehind := List.take_append_drop bytes.length (data.drop off)
  rw [hslice] at hbehind
  rw [Bytes.overwrite, List.append_assoc, ← List.drop_drop, hbehind, List.take_append_drop]

/-! ## Tables of numbers -/

/-- A number and its place. -/
structure Slot where
  offset : Nat
  width : Nat
  value : Nat
  deriving DecidableEq, Repr, Inhabited

namespace Slot

/-- Where the place ends. -/
def stop (slot : Slot) : Nat := slot.offset + slot.width

/-- The number fits in its place. -/
def Fits (slot : Slot) : Prop := slot.value < 1 <<< (8 * slot.width)

/-- The places do not overlap. -/
def Apart (slot other : Slot) : Prop := slot.stop ≤ other.offset ∨ other.stop ≤ slot.offset

instance (slot : Slot) : Decidable slot.Fits := inferInstanceAs (Decidable (_ < _))

instance (slot other : Slot) : Decidable (slot.Apart other) := inferInstanceAs (Decidable (_ ∨ _))

/-- The digits of the number. -/
def digits (slot : Slot) : Bytes := ofNatBE slot.width slot.value

@[simp] theorem length_digits (slot : Slot) : slot.digits.length = slot.width :=
  length_ofNatBE _ _

end Slot

/-- The places of a table do not overlap, and none reaches beyond `limit`. -/
def WellPlaced (slots : List Slot) (limit : Nat) : Prop :=
  slots.Pairwise Slot.Apart ∧ ∀ slot ∈ slots, slot.stop ≤ limit

instance (slots : List Slot) (limit : Nat) : Decidable (WellPlaced slots limit) :=
  inferInstanceAs (Decidable (_ ∧ _))

/-- The buffer with the numbers of a table written over it. -/
def fill (data : Bytes) (slots : List Slot) : Bytes :=
  slots.foldl (fun data slot => data.overwrite slot.offset slot.digits) data

/-- Every number of the table is read at its place. -/
def Reads (data : Bytes) (slots : List Slot) : Prop :=
  ∀ slot ∈ slots, data.beAt slot.offset slot.width = slot.value

variable {slots : List Slot}

theorem reads_append {more : List Slot} :
    data.Reads (slots ++ more) ↔ data.Reads slots ∧ data.Reads more :=
  List.forall_mem_append

theorem reads_nil : data.Reads [] := fun _ hmem => (List.not_mem_nil hmem).elim

theorem reads_cons {slot : Slot} :
    data.Reads (slot :: slots) ↔
      data.beAt slot.offset slot.width = slot.value ∧ data.Reads slots :=
  List.forall_mem_cons

theorem length_fill (hinside : ∀ slot ∈ slots, slot.stop ≤ data.length) :
    (data.fill slots).length = data.length := by
  induction slots generalizing data with
  | nil => rfl
  | cons slot rest ih =>
    obtain ⟨hfirst, hrest⟩ := List.forall_mem_cons.1 hinside
    have hlen : (data.overwrite slot.offset slot.digits).length = data.length :=
      length_overwrite (by rwa [Slot.length_digits])
    exact (ih fun other hmem => hlen ▸ hrest other hmem).trans hlen

theorem Holds.fill (h : data.Holds off bytes) (hinside : ∀ slot ∈ slots, slot.stop ≤ data.length)
    (hapart : ∀ slot ∈ slots, off + bytes.length ≤ slot.offset ∨ slot.stop ≤ off) :
    (data.fill slots).Holds off bytes := by
  induction slots generalizing data with
  | nil => exact h
  | cons slot rest ih =>
    obtain ⟨hfirst, hrest⟩ := List.forall_mem_cons.1 hinside
    obtain ⟨hapartFirst, hapartRest⟩ := List.forall_mem_cons.1 hapart
    have hdigits : slot.offset + slot.digits.length ≤ data.length := by rwa [Slot.length_digits]
    have hkept := h.overwrite hdigits (by rwa [Slot.length_digits])
    exact ih hkept (fun other hmem => length_overwrite hdigits ▸ hrest other hmem) hapartRest

/-- Of numbers written one after the other, each in a place of its own, none is spoilt. -/
theorem holds_fill (hapart : slots.Pairwise Slot.Apart)
    (hinside : ∀ slot ∈ slots, slot.stop ≤ data.length) :
    ∀ slot ∈ slots, (data.fill slots).Holds slot.offset slot.digits := by
  induction slots generalizing data with
  | nil => exact fun _ hmem => (List.not_mem_nil hmem).elim
  | cons slot rest ih =>
    obtain ⟨hfirst, hrest⟩ := List.forall_mem_cons.1 hinside
    obtain ⟨hapartFirst, hapartRest⟩ := List.pairwise_cons.1 hapart
    have hdigits : slot.offset + slot.digits.length ≤ data.length := by rwa [Slot.length_digits]
    have hinside' : ∀ other ∈ rest,
        other.stop ≤ (data.overwrite slot.offset slot.digits).length :=
      fun other hmem => length_overwrite hdigits ▸ hrest other hmem
    refine List.forall_mem_cons.2 ⟨?_, ih hapartRest hinside'⟩
    exact (holds_overwrite hdigits).fill hinside' (by rwa [Slot.length_digits])

/-- Numbers that fit, in places apart, are all read back. -/
theorem reads_fill (hfits : ∀ slot ∈ slots, slot.Fits) (hplaced : WellPlaced slots data.length) :
    (data.fill slots).Reads slots :=
  fun slot hmem => (holds_fill hplaced.1 hplaced.2 slot hmem).beAt_eq (hfits slot hmem)

theorem Reads.append (h : data.Reads slots) (hinside : ∀ slot ∈ slots, slot.stop ≤ data.length)
    (more : Bytes) : (data ++ more).Reads slots := by
  intro slot hmem
  have hend : slot.offset + slot.width ≤ data.length := hinside slot hmem
  rw [← h slot hmem, beAt, beAt, slice, slice, List.drop_append_of_le_length (by omega),
    List.take_append_of_le_length (by rw [List.length_drop]; omega)]

theorem Reads.fits (h : data.Reads slots) : ∀ slot ∈ slots, slot.Fits := by
  intro slot hmem
  rw [Slot.Fits, ← h slot hmem]
  exact beAt_lt data slot.offset slot.width

/-- Writing the numbers that are read changes nothing. -/
theorem Reads.fill_eq (h : data.Reads slots) (hinside : ∀ slot ∈ slots, slot.stop ≤ data.length) :
    data.fill slots = data := by
  induction slots with
  | nil => rfl
  | cons slot rest ih =>
    obtain ⟨hvalue, hvalues⟩ := reads_cons.1 h
    obtain ⟨hfirst, hrest⟩ := List.forall_mem_cons.1 hinside
    have hdigits : data.Holds slot.offset slot.digits := (holds_number.2 ⟨hfirst, hvalue⟩).1
    rw [fill, List.foldl_cons, hdigits.overwrite_eq]
    exact ih hvalues hrest

end DiskScope.Bytes
