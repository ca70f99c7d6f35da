/-
  DiskScope/Bytes.lean --- byte strings and the integers stored in them.

  WHAT THIS FILE IS FOR.  Everything on a disk is a byte string.  A structure is
  read by slicing it at fixed offsets and folding each slice into a natural
  number, most significant byte first (`toNatBE`, the order of XFS) or last
  (`toNatLE`, the order of DOS partition tables and sparse images).

  MAIN STATEMENTS.  Both codecs are exact inverses on `width` bytes:

      toNatBE (ofNatBE width n) = n       for n < 1 <<< (8 * width)
      ofNatBE data.length (toNatBE data) = data

  and the same for little-endian.  A number read from `width` bytes is below
  `1 <<< (8 * width)` (`beAt_lt`, `leAt_lt`), so words need no separate range checks.
-/
set_option autoImplicit false

namespace DiskScope

/-- A byte string. -/
abbrev Bytes := List UInt8

namespace Bytes

/-! ## Slices -/

/-- The `len` bytes from offset `off`, fewer where the string ends first. -/
def slice (data : Bytes) (off len : Nat) : Bytes :=
  (data.drop off).take len

/-- The byte at offset `off`, zero past the end. -/
def byteAt (data : Bytes) (off : Nat) : Nat :=
  ((data[off]?).getD 0).toNat

/-- The first `count` consecutive pieces of `width` bytes; the last may be shorter. -/
def cut (width : Nat) : Nat → Bytes → List Bytes
  | 0, _ => []
  | count + 1, data => data.take width :: cut width count (data.drop width)

/-- All whole pieces of `width` bytes, a shorter remainder dropped. -/
def wholePieces (width : Nat) (data : Bytes) : List Bytes :=
  cut width (data.length / width) data

/-- All pieces of `width` bytes, a shorter remainder included. -/
def pieces (width : Nat) (data : Bytes) : List Bytes :=
  cut width ((data.length + width - 1) / width) data

/-- The bytes before the first zero byte. -/
def untilZero (data : Bytes) : Bytes :=
  data.takeWhile (· ≠ 0)

@[simp] theorem length_slice (data : Bytes) (off len : Nat) :
    (data.slice off len).length = min len (data.length - off) := by
  simp [slice]

theorem length_slice_of_le {data : Bytes} {off len : Nat} (h : off + len ≤ data.length) :
    (data.slice off len).length = len := by
  rw [length_slice]; omega

@[simp] theorem length_cut (width count : Nat) (data : Bytes) :
    (cut width count data).length = count := by
  induction count generalizing data with
  | zero => rfl
  | succ n ih => simp [cut, ih]

/-- Pieces that fit in the string are whole. -/
theorem length_of_mem_cut {width count : Nat} {data piece : Bytes}
    (hfits : count * width ≤ data.length) (hpiece : piece ∈ cut width count data) :
    piece.length = width := by
  induction count generalizing data with
  | zero => cases hpiece
  | succ n ih =>
    rw [Nat.succ_mul] at hfits
    rcases List.mem_cons.1 hpiece with rfl | hrest
    · rw [List.length_take]; omega
    · exact ih (by rw [List.length_drop]; omega) hrest

/-- The `i`-th piece is the slice at `i * width`. -/
theorem getElem?_cut {width count i : Nat} (data : Bytes) (h : i < count) :
    (cut width count data)[i]? = some (data.slice (i * width) width) := by
  induction count generalizing data i with
  | zero => omega
  | succ n ih =>
    cases i with
    | zero => simp [cut, slice]
    | succ j =>
      rw [cut, List.getElem?_cons_succ, ih _ (by omega), slice, List.drop_drop, slice]
      congr 3
      rw [Nat.add_mul]; omega

/-! ## Little-endian integers -/

/-- The integer whose base-256 digits are `data`, least significant first. -/
def toNatLE : Bytes → Nat
  | [] => 0
  | b :: rest => b.toNat + 256 * toNatLE rest

/-- The `width` low base-256 digits of `n`, least significant first. -/
def ofNatLE : Nat → Nat → Bytes
  | 0, _ => []
  | width + 1, n => UInt8.ofNat n :: ofNatLE width (n / 256)

/-- The little-endian integer in the `width` bytes at `off`. -/
def leAt (data : Bytes) (off width : Nat) : Nat :=
  toNatLE (data.slice off width)

/-- One more byte multiplies the number of values by 256. -/
theorem values_succ (width : Nat) : 1 <<< (8 * (width + 1)) = 256 * (1 <<< (8 * width)) := by
  rw [Nat.mul_add, Nat.mul_one, Nat.one_shiftLeft, Nat.one_shiftLeft, Nat.pow_add, Nat.mul_comm]

/-- More bytes hold no fewer values. -/
theorem values_mono {width width' : Nat} (h : width ≤ width') :
    1 <<< (8 * width) ≤ 1 <<< (8 * width') := by
  rw [Nat.one_shiftLeft, Nat.one_shiftLeft]
  exact Nat.pow_le_pow_right (by omega) (by omega)

theorem toNatLE_lt (data : Bytes) : toNatLE data < 1 <<< (8 * data.length) := by
  induction data with
  | nil => simp [toNatLE]
  | cons b rest ih =>
    have := b.toNat_lt
    rw [toNatLE, List.length_cons, values_succ]
    omega

@[simp] theorem length_ofNatLE (width n : Nat) : (ofNatLE width n).length = width := by
  induction width generalizing n with
  | zero => rfl
  | succ width ih => simp [ofNatLE, ih]

theorem toNatLE_ofNatLE_mod (width n : Nat) :
    toNatLE (ofNatLE width n) = n % (1 <<< (8 * width)) := by
  induction width generalizing n with
  | zero => simp [ofNatLE, toNatLE, Nat.mod_one]
  | succ width ih =>
    have byte : (UInt8.ofNat n).toNat = n % 256 := by simp
    rw [ofNatLE, toNatLE, ih, byte, values_succ, Nat.mod_mul]

/-- A number that fits in `width` bytes is read back. -/
theorem toNatLE_ofNatLE {width n : Nat} (h : n < 1 <<< (8 * width)) :
    toNatLE (ofNatLE width n) = n := by
  rw [toNatLE_ofNatLE_mod, Nat.mod_eq_of_lt h]

/-- Writing the number read from `data` gives `data` back. -/
theorem ofNatLE_toNatLE (data : Bytes) : ofNatLE data.length (toNatLE data) = data := by
  induction data with
  | nil => rfl
  | cons b rest ih =>
    have hb := b.toNat_lt
    have hq : (b.toNat + 256 * toNatLE rest) / 256 = toNatLE rest := by omega
    have hr : UInt8.ofNat (b.toNat + 256 * toNatLE rest) = b := by
      apply UInt8.toNat_inj.1
      simp
    rw [List.length_cons, toNatLE, ofNatLE, hq, ih, hr]

theorem leAt_lt (data : Bytes) (off width : Nat) : data.leAt off width < 1 <<< (8 * width) := by
  refine Nat.lt_of_lt_of_le (toNatLE_lt _) (values_mono ?_)
  rw [length_slice]; omega

/-! ## Big-endian integers

The big-endian digits are the little-endian ones in reverse, and so are the laws. -/

/-- The integer whose base-256 digits are `data`, most significant first. -/
def toNatBE (data : Bytes) : Nat :=
  toNatLE data.reverse

/-- The `width` low base-256 digits of `n`, most significant first. -/
def ofNatBE (width n : Nat) : Bytes :=
  (ofNatLE width n).reverse

/-- The big-endian integer in the `width` bytes at `off`. -/
def beAt (data : Bytes) (off width : Nat) : Nat :=
  toNatBE (data.slice off width)

/-- The big-endian 16-bit word at `off`. -/
abbrev be16 (data : Bytes) (off : Nat) : Nat := data.beAt off 2

/-- The big-endian 32-bit word at `off`. -/
abbrev be32 (data : Bytes) (off : Nat) : Nat := data.beAt off 4

/-- The big-endian 64-bit word at `off`. -/
abbrev be64 (data : Bytes) (off : Nat) : Nat := data.beAt off 8

theorem toNatBE_lt (data : Bytes) : toNatBE data < 1 <<< (8 * data.length) := by
  simpa [toNatBE] using toNatLE_lt data.reverse

@[simp] theorem length_ofNatBE (width n : Nat) : (ofNatBE width n).length = width := by
  simp [ofNatBE]

theorem toNatBE_ofNatBE_mod (width n : Nat) :
    toNatBE (ofNatBE width n) = n % (1 <<< (8 * width)) := by
  simp [toNatBE, ofNatBE, toNatLE_ofNatLE_mod]

/-- A number that fits in `width` bytes is read back. -/
theorem toNatBE_ofNatBE {width n : Nat} (h : n < 1 <<< (8 * width)) :
    toNatBE (ofNatBE width n) = n := by
  rw [toNatBE_ofNatBE_mod, Nat.mod_eq_of_lt h]

/-- Writing the number read from `data` gives `data` back. -/
theorem ofNatBE_toNatBE (data : Bytes) : ofNatBE data.length (toNatBE data) = data := by
  rw [ofNatBE, toNatBE, ← List.length_reverse, ofNatLE_toNatLE, List.reverse_reverse]

theorem beAt_lt (data : Bytes) (off width : Nat) : data.beAt off width < 1 <<< (8 * width) := by
  refine Nat.lt_of_lt_of_le (toNatBE_lt _) (values_mono ?_)
  rw [length_slice]; omega

end Bytes

end DiskScope
