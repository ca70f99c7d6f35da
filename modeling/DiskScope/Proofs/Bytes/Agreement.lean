/-
  DiskScope/Proofs/Bytes/Agreement.lean --- byte strings that agree up to a position.

  WHAT THIS FILE IS FOR.  A decoder that must not look behind a position treats two strings
  alike if they agree up to there, however they go on and wherever they end.  `AgreeTo` is
  that hypothesis; each way of reading has one lemma, which asks only that what is read
  ends in time.

  MAIN STATEMENTS.

      slice_eq, beAt_eq, byteAt_eq    what ends in time is read alike
      require_eq                      and no length check can tell the strings apart
-/
import DiskScope.Fault
import DiskScope.Proofs.Bytes.Holds

set_option autoImplicit false

namespace DiskScope.Bytes

/-- Both strings reach up to `limit`, and hold the same bytes before it. -/
structure AgreeTo (limit : Nat) (data other : Bytes) : Prop where
  le_left : limit ≤ data.length
  le_right : limit ≤ other.length
  take_eq : data.take limit = other.take limit

/-- A slice that ends in time is one of what stands before the limit. -/
theorem slice_take {data : Bytes} {limit off len : Nat} (hend : off + len ≤ limit) :
    slice (data.take limit) off len = data.slice off len := by
  rw [slice, slice, List.drop_take, List.take_take, Nat.min_eq_left (by omega)]

namespace AgreeTo

variable {limit : Nat} {data other : Bytes}

/-- Strings with a common beginning agree as far as it reaches. -/
theorem of_append {front : Bytes} (hend : limit ≤ front.length) (more more' : Bytes) :
    AgreeTo limit (front ++ more) (front ++ more') where
  le_left := by rw [List.length_append]; omega
  le_right := by rw [List.length_append]; omega
  take_eq := by rw [List.take_append_of_le_length hend, List.take_append_of_le_length hend]

theorem slice_eq (h : AgreeTo limit data other) {off len : Nat} (hend : off + len ≤ limit) :
    data.slice off len = other.slice off len := by
  rw [← slice_take hend, h.take_eq, slice_take hend]

theorem beAt_eq (h : AgreeTo limit data other) {off width : Nat} (hend : off + width ≤ limit) :
    data.beAt off width = other.beAt off width := by
  rw [beAt, beAt, h.slice_eq hend]

theorem byteAt_eq (h : AgreeTo limit data other) {off : Nat} (hend : off + 1 ≤ limit) :
    data.byteAt off = other.byteAt off := by
  rw [byteAt_eq_beAt, byteAt_eq_beAt, h.beAt_eq hend]

/-- A length that ends in time is there in both. -/
theorem require_eq (h : AgreeTo limit data other) {needed : Nat} (hend : needed ≤ limit)
    (part : String) : data.require part needed = other.require part needed := by
  have hleft : needed ≤ data.length := Nat.le_trans hend h.le_left
  have hright : needed ≤ other.length := Nat.le_trans hend h.le_right
  rw [require_eq_ok_iff.2 hleft, require_eq_ok_iff.2 hright]

end AgreeTo

end DiskScope.Bytes
