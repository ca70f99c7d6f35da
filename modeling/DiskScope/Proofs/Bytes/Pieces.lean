/-
  DiskScope/Proofs/Bytes/Pieces.lean --- byte strings cut into pieces.

  WHAT THIS FILE IS FOR.  Records, blocks and the lines of a dump are consecutive pieces of one
  width.  A piece is a slice, and the pieces in a row are the string again, up to where
  they end: nothing is lost between two of them, and nothing stands in two.

  MAIN STATEMENTS.

      cut_eq_map        the pieces are slices
      flatten_cut       in a row they are the string up to where they end
      flatten_pieces    which is all of it if a shorter last one counts
-/
import DiskScope.Bytes

set_option autoImplicit false

namespace DiskScope.Bytes

/-- A slice of what is left is a slice further on. -/
theorem slice_drop (data : Bytes) (start off len : Nat) :
    Bytes.slice (data.drop start) off len = data.slice (start + off) len := by
  rw [slice, List.drop_drop, slice]

theorem cut_eq_map (width count : Nat) (data : Bytes) :
    cut width count data = (List.range count).map fun i => data.slice (i * width) width := by
  refine List.ext_getElem (by simp) fun i hcut _ => ?_
  rw [length_cut] at hcut
  have hpiece : (cut width count data)[i]? = some (data.slice (i * width) width) :=
    getElem?_cut data hcut
  simpa [List.getElem_eq_iff] using hpiece

/-- Nothing is lost between two pieces. -/
theorem flatten_cut (width count : Nat) (data : Bytes) :
    (cut width count data).flatten = data.take (count * width) := by
  induction count generalizing data with
  | zero => simp [cut]
  | succ count ih =>
    rw [cut, List.flatten_cons, ih, Nat.succ_mul, Nat.add_comm, List.take_add]

/-! ## All pieces -/

@[simp] theorem length_pieces (width : Nat) (data : Bytes) :
    (data.pieces width).length = (data.length + width - 1) / width :=
  length_cut _ _ _

theorem getElem?_pieces {width i : Nat} {data : Bytes} (h : i < (data.pieces width).length) :
    (data.pieces width)[i]? = some (data.slice (i * width) width) :=
  getElem?_cut data (by rwa [length_pieces] at h)

/-- With a shorter last piece, nothing is lost at the end either. -/
theorem flatten_pieces {width : Nat} (hwidth : 0 < width) (data : Bytes) :
    (data.pieces width).flatten = data := by
  have hcover : data.length ≤ (data.length + width - 1) / width * width := by
    have hsplit := Nat.div_add_mod (data.length + width - 1) width
    have hmod := Nat.mod_lt (data.length + width - 1) hwidth
    rw [Nat.mul_comm] at hsplit
    omega
  rw [pieces, flatten_cut, List.take_of_length_le hcover]

end DiskScope.Bytes
