/-
  DiskScope/Proofs/Bytes/Holds.lean --- what stands where in a byte string.

  WHAT THIS FILE IS FOR.  A decoder looks at an offset; an encoder puts one piece behind
  another.  `Holds` joins the two: a string holds some bytes at an offset.  Holding two
  pieces in a row is holding each at its own offset (`holds_append`), and reading a
  number is the same as finding its digits (`holds_number`), so that a record is decoded
  exactly where its encoding stands.

  MAIN STATEMENTS.

      holds_append      a row of pieces, one by one
      holds_number      a number of the right width is read where its digits stand
      holds_zero_iff    a string holds its own beginnings at offset zero
-/
import DiskScope.Bytes

set_option autoImplicit false

namespace DiskScope.Bytes

variable {data bytes : Bytes} {off : Nat}

/-- The string has these bytes at this offset. -/
def Holds (data : Bytes) (off : Nat) (bytes : Bytes) : Prop :=
  off + bytes.length ≤ data.length ∧ data.slice off bytes.length = bytes

theorem slice_add (data : Bytes) (off len more : Nat) :
    data.slice off (len + more) = data.slice off len ++ data.slice (off + len) more := by
  rw [slice, slice, slice, List.take_add, List.drop_drop]

/-- Two pieces in a row stand each at its own offset. -/
theorem holds_append {front back : Bytes} :
    data.Holds off (front ++ back) ↔
      data.Holds off front ∧ data.Holds (off + front.length) back := by
  simp only [Holds, List.length_append, slice_add]
  constructor
  · rintro ⟨hlen, hslice⟩
    have hfront : (data.slice off front.length).length = front.length :=
      length_slice_of_le (by omega)
    obtain ⟨hfirst, hsecond⟩ := List.append_inj hslice hfront
    exact ⟨⟨by omega, hfirst⟩, by omega, hsecond⟩
  · rintro ⟨⟨_, hfirst⟩, hlen, hsecond⟩
    exact ⟨by omega, by rw [hfirst, hsecond]⟩

theorem holds_nil : data.Holds off [] ↔ off ≤ data.length := by
  simp [Holds, slice]

theorem holds_slice {len : Nat} (h : off + len ≤ data.length) :
    data.Holds off (data.slice off len) := by
  rw [Holds, length_slice_of_le h]
  exact ⟨h, rfl⟩

theorem Holds.slice_eq {len : Nat} (h : data.Holds off bytes) (hlen : bytes.length = len) :
    data.slice off len = bytes :=
  hlen ▸ h.2

/-- What stands at offset zero is a beginning of the string. -/
theorem holds_zero_iff : data.Holds 0 bytes ↔ bytes <+: data := by
  rw [Holds, slice, List.drop_zero, List.prefix_iff_eq_take, Nat.zero_add]
  constructor
  · rintro ⟨_, htake⟩
    exact htake.symm
  · intro htake
    refine ⟨?_, htake.symm⟩
    have hlen := congrArg List.length htake
    rw [List.length_take] at hlen
    omega

/-! ## Numbers -/

/-- A number of the right width is read where its digits stand. -/
theorem holds_number {width n : Nat} :
    data.Holds off (ofNatBE width n) ∧ n < 1 <<< (8 * width) ↔
      off + width ≤ data.length ∧ data.beAt off width = n := by
  rw [Holds, length_ofNatBE, beAt]
  constructor
  · rintro ⟨⟨hlen, hslice⟩, hfit⟩
    exact ⟨hlen, by rw [hslice, toNatBE_ofNatBE hfit]⟩
  · rintro ⟨hlen, rfl⟩
    have hwidth := length_slice_of_le hlen
    refine ⟨⟨hlen, ?_⟩, ?_⟩
    · have hdigits := ofNatBE_toNatBE (data.slice off width)
      rw [hwidth] at hdigits
      exact hdigits.symm
    · have hlt := toNatBE_lt (data.slice off width)
      rwa [hwidth] at hlt

theorem Holds.beAt_eq {width n : Nat} (h : data.Holds off (ofNatBE width n))
    (hfit : n < 1 <<< (8 * width)) : data.beAt off width = n :=
  (holds_number.1 ⟨h, hfit⟩).2

theorem slice_of_beAt_eq {width : Nat} (hwidth : bytes.length = width)
    (hlen : off + width ≤ data.length) (h : data.beAt off width = toNatBE bytes) :
    data.slice off width = bytes := by
  obtain ⟨hdigits, _⟩ := holds_number.2 ⟨hlen, h⟩
  rw [← hwidth, ofNatBE_toNatBE] at hdigits
  exact hdigits.slice_eq hwidth

theorem ofNatBE_one (n : Nat) : ofNatBE 1 n = [UInt8.ofNat n] := rfl

theorem byteAt_eq_beAt (data : Bytes) (off : Nat) : data.byteAt off = data.beAt off 1 := by
  rw [byteAt, beAt, slice]
  by_cases h : off < data.length
  · rw [List.getElem?_eq_getElem h, List.drop_eq_getElem_cons h]
    rfl
  · rw [List.getElem?_eq_none (Nat.not_lt.1 h), List.drop_of_length_le (Nat.not_lt.1 h)]
    rfl

theorem holds_byte {n : Nat} :
    data.Holds off [UInt8.ofNat n] ∧ n < 256 ↔ off + 1 ≤ data.length ∧ data.byteAt off = n := by
  rw [byteAt_eq_beAt, ← ofNatBE_one]
  exact holds_number

end DiskScope.Bytes
