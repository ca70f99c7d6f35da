/-
  DiskScope/Bitmap.lean --- one bit for each block of a device.

  WHAT THIS FILE IS FOR.  Free space is collected in a bitmap: bit `i` lives in byte
  `i / 8`, least significant bit first.  Bits at or past the end cannot be set,
  and the unused bits of the last byte stay clear, which is what makes counting
  and inverting whole bytes right.

  Runs of set bits are found by a cursor that steps over a whole zero byte at a
  time where it stands at the start of one, and bit by bit elsewhere.

  MAIN STATEMENTS.  `test_set` says what setting one bit does to every bit; the
  cursor lemmas `le_seekSet` and `le_seekClear` are why finding runs ends.
-/
import DiskScope.Bytes

set_option autoImplicit false

namespace DiskScope

/-- A stretch of consecutive blocks. -/
structure Run where
  start : Nat
  length : Nat
  deriving DecidableEq, Repr, Inhabited

/-- A map of `bitCount` bits. -/
structure Bitmap where
  bitCount : Nat
  bytes : Array UInt8
  deriving DecidableEq, Repr, Inhabited

namespace Bitmap

/-! ## Single bits -/

/-- The map of `bitCount` clear bits. -/
def blank (bitCount : Nat) : Bitmap :=
  ⟨bitCount, Array.replicate ((bitCount + 7) / 8) 0⟩

/-- The byte that holds bit `i`. -/
def byteOf (map : Bitmap) (i : Nat) : UInt8 :=
  map.bytes.getD (i / 8) 0

/-- Whether bit `i` is set; bits past the end are not. -/
def test (map : Bitmap) (i : Nat) : Bool :=
  decide (i < map.bitCount) && (map.byteOf i).toNat.testBit (i % 8)

/-- The byte with only bit `i % 8` set. -/
def mask (i : Nat) : UInt8 := UInt8.ofNat (1 <<< (i % 8))

/-- The map with bit `i` set, if it has such a bit. -/
def set (map : Bitmap) (i : Nat) : Bitmap :=
  if i < map.bitCount then { map with bytes := map.bytes.modify (i / 8) (· ||| mask i) } else map

/-- Whether setting bit `i` would change the map. -/
def canSet (map : Bitmap) (i : Nat) : Bool :=
  decide (i < map.bitCount) && !map.test i

@[simp] theorem bitCount_set (map : Bitmap) (i : Nat) : (map.set i).bitCount = map.bitCount := by
  unfold set; split <;> rfl

@[simp] theorem size_set (map : Bitmap) (i : Nat) :
    (map.set i).bytes.size = map.bytes.size := by
  unfold set; split <;> simp

theorem toNat_mask (i : Nat) : (mask i).toNat = 1 <<< (i % 8) := by
  rw [mask, UInt8.toNat_ofNat', Nat.one_shiftLeft]
  exact Nat.mod_eq_of_lt (Nat.pow_lt_pow_right (by omega) (by omega))

theorem byteOf_set (map : Bitmap) {i : Nat} (hi : i < map.bitCount)
    (hsize : i / 8 < map.bytes.size) (j : Nat) :
    (map.set i).byteOf j = if i / 8 = j / 8 then map.byteOf j ||| mask i else map.byteOf j := by
  simp only [set, hi, if_true, byteOf, Array.getD_eq_getD_getElem?, Array.getElem?_modify]
  by_cases h : i / 8 = j / 8
  · simp [← h, hsize]
  · simp [h]

/-- Setting bit `i` changes bit `i` and no other. -/
theorem test_set (map : Bitmap) {i : Nat} (hi : i < map.bitCount)
    (hsize : i / 8 < map.bytes.size) (j : Nat) :
    (map.set i).test j = (map.test j || decide (j = i)) := by
  rw [test, byteOf_set map hi hsize, bitCount_set, test]
  by_cases hj : j < map.bitCount
  · by_cases h : i / 8 = j / 8
    · rw [if_pos h, UInt8.toNat_or, Nat.testBit_or, toNat_mask, Nat.one_shiftLeft,
        Nat.testBit_two_pow]
      have : (i % 8 = j % 8) ↔ j = i := by omega
      simp [hj, this]
    · have : j ≠ i := fun e => h (by rw [e])
      simp [h, this]
  · have : j ≠ i := fun e => hj (e ▸ hi)
    simp [hj, this]

/-! ## Ranges and the whole map -/

/-- Sets `count` bits from `start` on, adding to `newly` how many of them were clear. -/
def setFrom : Nat → Nat → Nat → Bitmap → Nat × Bitmap
  | 0, _, newly, map => (newly, map)
  | count + 1, start, newly, map =>
    if map.canSet start then setFrom count (start + 1) (newly + 1) (map.set start)
    else setFrom count (start + 1) newly map

/-- Sets the `count` bits from `start` on, those that the map has: how many were clear, and the map. -/
def setRange (map : Bitmap) (start count : Nat) : Nat × Bitmap :=
  setFrom (min (start + count) map.bitCount - start) start 0 map

/-- The last byte with the bits past the end cleared. -/
def trim (bitCount : Nat) (bytes : Array UInt8) : Array UInt8 :=
  if bitCount % 8 = 0 then bytes
  else bytes.modify (bytes.size - 1) (· &&& UInt8.ofNat ((1 <<< (bitCount % 8)) - 1))

/-- The map with every bit flipped. -/
def invert (map : Bitmap) : Bitmap :=
  { map with bytes := trim map.bitCount (map.bytes.map (~~~ ·)) }

/-- The number of set bits of a byte. -/
def byteCount (b : UInt8) : Nat :=
  (List.range 8).countP fun k => b.toNat.testBit k

/-- The number of set bits. -/
def count (map : Bitmap) : Nat :=
  map.bytes.foldl (fun total b => total + byteCount b) 0

/-! ## Runs -/

/-- The first set bit at or after `i`, or some position past the end. -/
def seekSet (map : Bitmap) (i : Nat) : Nat :=
  if i < map.bitCount then
    if i % 8 = 0 ∧ map.byteOf i = 0 then seekSet map (i + 8)
    else if map.test i then i
    else seekSet map (i + 1)
  else i
termination_by map.bitCount - i

/-- The first bit at or after `i` that is not set. -/
def seekClear (map : Bitmap) (i : Nat) : Nat :=
  if i < map.bitCount ∧ map.test i then seekClear map (i + 1) else i
termination_by map.bitCount - i

theorem le_seekSet (map : Bitmap) (i : Nat) : i ≤ map.seekSet i := by
  fun_induction seekSet map i <;> omega

theorem le_seekClear (map : Bitmap) (i : Nat) : i ≤ map.seekClear i := by
  fun_induction seekClear map i <;> omega

/-- The maximal runs of set bits at or after `i`, in order, for a cursor outside a run. -/
def runsFrom (map : Bitmap) (i : Nat) : List Run :=
  if h : map.seekSet i < map.bitCount then
    ⟨map.seekSet i, map.seekClear (map.seekSet i + 1) - map.seekSet i⟩
      :: runsFrom map (map.seekClear (map.seekSet i + 1))
  else []
termination_by map.bitCount - i
decreasing_by
  have := map.le_seekSet i
  have := map.le_seekClear (map.seekSet i + 1)
  omega

/-- The maximal runs of set bits, in order. -/
def setRuns (map : Bitmap) : List Run := map.runsFrom 0

/-- The maximal runs of clear bits, in order: the used blocks of a map of free ones. -/
def clearRuns (map : Bitmap) : List Run := map.invert.setRuns

end Bitmap

end DiskScope
