/-
  DiskScope/Text/Size.lean --- byte counts as people read them.

  WHAT THIS FILE IS FOR.  A count of bytes is shown in the largest binary unit
  that it reaches, with one decimal; below one KiB it is shown exactly.  The
  quotient is rounded to the nearest tenth, a tie going to the even tenth.

  Counts of 2^53 and more are first rounded to 53 significant bits, again with
  ties to even, so that a count and its neighbours share one text.

  MAIN STATEMENT.  `two_mul_roundQuotient_near`: a rounded quotient is within half a
  unit of the exact one.
-/
import DiskScope.Text.Layout

set_option autoImplicit false

namespace DiskScope.Text.Size

/-! ## Rounding -/

/-- `num / den` rounded to the nearest integer, a tie to the even one. -/
def roundQuotient (num den : Nat) : Nat :=
  let quotient := num / den
  let twice := 2 * (num % den)
  if twice < den then quotient
  else if den < twice then quotient + 1
  else if quotient % 2 = 0 then quotient
  else quotient + 1

/-- A rounded quotient lies within half a unit of the exact one. -/
theorem two_mul_roundQuotient_near (num den : Nat) (h : 0 < den) :
    2 * (roundQuotient num den * den) ≤ 2 * num + den ∧
      2 * num ≤ 2 * (roundQuotient num den * den) + den := by
  have hsplit := Nat.div_add_mod num den
  have hmod := Nat.mod_lt num h
  have hcomm := Nat.mul_comm den (num / den)
  simp only [roundQuotient]
  split
  · omega
  · split
    · rw [Nat.add_mul]; omega
    · split
      · omega
      · rw [Nat.add_mul]; omega

/-- `n` rounded to 53 significant bits, a tie to the even neighbour. -/
def roundSignificant (n : Nat) : Nat :=
  if n < 0x20000000000000 then n
  else
    let step := 1 <<< (Nat.log2 n - 52)
    roundQuotient n step * step

/-! ## Units -/

/-- The units of a byte count. -/
inductive Scale where
  | byte | kib | mib | gib | tib
  deriving DecidableEq, Repr, Inhabited

namespace Scale

/-- How many bytes one unit is. -/
def size : Scale → Nat
  | byte => 1
  | kib => 1024
  | mib => 1024 * 1024
  | gib => 1024 * 1024 * 1024
  | tib => 1024 * 1024 * 1024 * 1024

/-- The unit's symbol. -/
def symbol : Scale → String
  | byte => "B"
  | kib => "KiB"
  | mib => "MiB"
  | gib => "GiB"
  | tib => "TiB"

/-- The largest unit that `count` reaches; bytes for smaller counts. -/
def of (count : Nat) : Scale :=
  if tib.size ≤ count then tib
  else if gib.size ≤ count then gib
  else if mib.size ≤ count then mib
  else if kib.size ≤ count then kib
  else byte

end Scale

/-! ## The text -/

/-- The number of tenths of `scale` that `count` is shown as. -/
def tenths (count : Nat) (scale : Scale) : Nat :=
  roundQuotient (10 * roundSignificant count) scale.size

/-- A byte count in its largest unit, such as `1.2 KiB`. -/
def format (count : Nat) : String :=
  match Scale.of count with
  | .byte => decimal count ++ " B"
  | scale =>
    let shown := tenths count scale
    decimal (shown / 10) ++ "." ++ decimal (shown % 10) ++ " " ++ scale.symbol

end DiskScope.Text.Size
