/-
  DiskScope/Proofs/Text/Sizes.lean --- sizes are rounded well, and keep their order.

  WHAT THIS FILE IS FOR.  The text of a size says less than the number of bytes: it is rounded to
  tenths of a unit, and from 2^53 bytes on the number has been rounded once before.  What
  may be expected of it is that no other tenth is nearer, as long as there is one rounding
  only, and that of two sizes the larger never reads like the smaller, whatever their units
  are.

  WHY THE ORDER IS KEPT.  Both roundings keep the order and leave powers of two alone.  Between
  two sizes of different units lies the larger unit: the smaller size is shown as that
  much at most, and the larger one as that much at least.

  HOW TEXTS ARE COMPARED.  `read?` takes a text apart into a number of tenths and a unit, and
  shares no number with the writer.  What it gives is compared as rational numbers of bytes.

  MAIN STATEMENTS.

      roundQuotient_mono, roundSignificant_mono     roundings keep the order
      tenths_mul_size_mono                          so do sizes, across units
      read?_format                                  what is shown is what is read
      sizes_rounded                                 all of it, for the texts
-/
import DiskScope.Proofs.Text.Numeral
import DiskScope.Text.Size
import Mathlib.Algebra.Order.Field.Basic
import Mathlib.Data.Rat.Cast.Order
import Mathlib.Tactic.FieldSimp
import Mathlib.Tactic.Linarith

set_option autoImplicit false

namespace DiskScope.Text.Size

/-! ## Rounding quotients -/

section roundQuotient

variable {num other den : Nat}

theorem roundQuotient_mul (n : Nat) (h : 0 < den) : roundQuotient (n * den) den = n := by
  simp [roundQuotient, Nat.mul_div_cancel _ h, h]

theorem roundQuotient_mono (h : 0 < den) (hle : num ≤ other) :
    roundQuotient num den ≤ roundQuotient other den := by
  obtain ⟨hlow, hhigh⟩ := two_mul_roundQuotient_near num den h
  obtain ⟨hlow', hhigh'⟩ := two_mul_roundQuotient_near other den h
  rcases Nat.lt_or_ge (roundQuotient other den) (roundQuotient num den) with hlt | hge
  · -- Only the middle between two neighbours is as near to the one as to the other.
    have hstep : (roundQuotient other den + 1) * den ≤ roundQuotient num den * den :=
      Nat.mul_le_mul_right den hlt
    rw [Nat.add_mul, Nat.one_mul] at hstep
    obtain rfl : num = other := by omega
    exact Nat.le_refl _
  · exact hge

theorem le_roundQuotient {n : Nat} (h : 0 < den) (hle : n * den ≤ num) :
    n ≤ roundQuotient num den := by
  rw [← roundQuotient_mul n h]
  exact roundQuotient_mono h hle

theorem roundQuotient_le {n : Nat} (h : 0 < den) (hle : num ≤ n * den) :
    roundQuotient num den ≤ n := by
  rw [← roundQuotient_mul n h]
  exact roundQuotient_mono h hle

/-- Of two neighbours that are equally near, the even one is taken. -/
theorem even_of_tie (htie : 2 * (roundQuotient num den * den) + den = 2 * num ∨
    2 * (roundQuotient num den * den) = 2 * num + den) (h : 0 < den) :
    roundQuotient num den % 2 = 0 := by
  have hsplit := Nat.div_add_mod num den
  have hmod := Nat.mod_lt num h
  have hcomm := Nat.mul_comm den (num / den)
  revert htie
  simp only [roundQuotient]
  split
  · omega
  · split
    · rw [Nat.add_mul]; omega
    · split
      · omega
      · omega

/-- What a rounded quotient is away from the exact one. -/
theorem exact_sub_roundQuotient (num : Nat) (h : 0 < den) :
    (num : ℚ) / den - roundQuotient num den = (num - roundQuotient num den * den) / den := by
  have hden : (den : ℚ) ≠ 0 := by exact_mod_cast h.ne'
  field_simp

/-- It is at most a half. -/
theorem abs_exact_sub_le (num : Nat) (h : 0 < den) :
    |(num : ℚ) / den - roundQuotient num den| ≤ 1 / 2 := by
  have hden : (0 : ℚ) < den := by exact_mod_cast h
  obtain ⟨hlow, hhigh⟩ := two_mul_roundQuotient_near num den h
  have hlow : (2 * (roundQuotient num den * den) : ℚ) ≤ 2 * num + den := by exact_mod_cast hlow
  have hhigh : (2 * num : ℚ) ≤ 2 * (roundQuotient num den * den) + den := by exact_mod_cast hhigh
  rw [exact_sub_roundQuotient num h, abs_le, le_div_iff₀ hden, div_le_iff₀ hden]
  constructor
  · linarith only [hlow]
  · linarith only [hhigh]

theorem even_of_abs_eq (h : 0 < den)
    (htie : |(num : ℚ) / den - roundQuotient num den| = 1 / 2) : roundQuotient num den % 2 = 0 := by
  have hden : (0 : ℚ) < den := by exact_mod_cast h
  rw [exact_sub_roundQuotient num h] at htie
  refine even_of_tie ?_ h
  rcases eq_or_eq_neg_of_abs_eq htie with heq | heq
  · rw [div_eq_iff hden.ne'] at heq
    have : (2 * (roundQuotient num den * den) + den : ℚ) = 2 * num := by linarith only [heq]
    exact .inl (by exact_mod_cast this)
  · rw [div_eq_iff hden.ne'] at heq
    have : (2 * (roundQuotient num den * den) : ℚ) = 2 * num + den := by linarith only [heq]
    exact .inr (by exact_mod_cast this)

end roundQuotient

/-! ## Rounding to 53 bits -/

theorem roundSignificant_of_lt {n : Nat} (h : n < 2 ^ 53) : roundSignificant n = n :=
  if_pos h

theorem roundSignificant_of_le {n : Nat} (h : 2 ^ 53 ≤ n) :
    roundSignificant n =
      roundQuotient n (2 ^ (Nat.log2 n - 52)) * 2 ^ (Nat.log2 n - 52) := by
  have hnot : ¬ n < 0x20000000000000 := Nat.not_lt.2 h
  simp only [roundSignificant, if_neg hnot, Nat.one_shiftLeft]

/-- No power of two below a number is rounded past. -/
theorem le_roundSignificant {n k : Nat} (h : 2 ^ k ≤ n) : 2 ^ k ≤ roundSignificant n := by
  rcases Nat.lt_or_ge n (2 ^ 53) with hsmall | hlarge
  · rw [roundSignificant_of_lt hsmall]
    exact h
  · have hpos : n ≠ 0 := by have := Nat.two_pow_pos 53; omega
    have hk : k ≤ Nat.log2 n := (Nat.le_log2 hpos).2 h
    -- The largest power is a multiple of the step.
    have hself : 2 ^ (Nat.log2 n - (Nat.log2 n - 52)) * 2 ^ (Nat.log2 n - 52) = 2 ^ Nat.log2 n := by
      rw [← Nat.pow_add, Nat.sub_add_cancel (Nat.sub_le _ _)]
    have hround := le_roundQuotient (Nat.two_pow_pos (Nat.log2 n - 52))
      (Nat.le_trans (Nat.le_of_eq hself) (Nat.log2_self_le hpos))
    rw [roundSignificant_of_le hlarge]
    calc 2 ^ k ≤ 2 ^ Nat.log2 n := Nat.pow_le_pow_right (by omega) hk
      _ = 2 ^ (Nat.log2 n - (Nat.log2 n - 52)) * 2 ^ (Nat.log2 n - 52) := hself.symm
      _ ≤ _ := Nat.mul_le_mul_right _ hround

/-- Nor one above it. -/
theorem roundSignificant_le {n k : Nat} (h : n ≤ 2 ^ k) : roundSignificant n ≤ 2 ^ k := by
  rcases Nat.lt_or_ge n (2 ^ 53) with hsmall | hlarge
  · rw [roundSignificant_of_lt hsmall]
    exact h
  · have hpos : n ≠ 0 := by have := Nat.two_pow_pos 53; omega
    have hstep : Nat.log2 n - 52 ≤ k := by
      have hlog : 2 ^ Nat.log2 n ≤ 2 ^ k := Nat.le_trans (Nat.log2_self_le hpos) h
      have := (Nat.pow_le_pow_iff_right (by omega : 1 < 2)).1 hlog
      omega
    have hpow : 2 ^ (k - (Nat.log2 n - 52)) * 2 ^ (Nat.log2 n - 52) = 2 ^ k := by
      rw [← Nat.pow_add, Nat.sub_add_cancel hstep]
    have hround := roundQuotient_le (Nat.two_pow_pos (Nat.log2 n - 52)) (hpow ▸ h)
    rw [roundSignificant_of_le hlarge]
    calc _ ≤ 2 ^ (k - (Nat.log2 n - 52)) * 2 ^ (Nat.log2 n - 52) := Nat.mul_le_mul_right _ hround
      _ = 2 ^ k := hpow

theorem roundSignificant_mono {n m : Nat} (h : n ≤ m) : roundSignificant n ≤ roundSignificant m := by
  rcases Nat.eq_zero_or_pos n with rfl | hn
  · exact Nat.zero_le _
  · have hm : m ≠ 0 := by omega
    rcases Nat.lt_or_ge n (2 ^ Nat.log2 m) with hlog | hlog
    · -- A power of two lies between them.
      exact Nat.le_trans (roundSignificant_le (Nat.le_of_lt hlog))
        (le_roundSignificant (Nat.log2_self_le hm))
    · -- They have the same leading bit, so they are rounded by the same step.
      have hsame : Nat.log2 n = Nat.log2 m := by
        refine Nat.le_antisymm ((Nat.le_log2 hm).2 ?_) ((Nat.le_log2 (by omega)).2 hlog)
        exact Nat.le_trans (Nat.log2_self_le (by omega)) h
      rcases Nat.lt_or_ge n (2 ^ 53) with hsmall | hlarge
      · rw [roundSignificant_of_lt hsmall]
        rcases Nat.lt_or_ge m (2 ^ 53) with hsmall' | hlarge'
        · rw [roundSignificant_of_lt hsmall']
          exact h
        · exact Nat.le_trans (Nat.le_of_lt hsmall) (le_roundSignificant hlarge')
      · rw [roundSignificant_of_le hlarge, roundSignificant_of_le (Nat.le_trans hlarge h), hsame]
        exact Nat.mul_le_mul_right _ (roundQuotient_mono (Nat.two_pow_pos _) h)

/-! ## Units -/

namespace Scale

/-- Every unit. -/
def all : List Scale := [byte, kib, mib, gib, tib]

/-- Each unit is a power of two. -/
def exponent : Scale → Nat
  | byte => 0
  | kib => 10
  | mib => 20
  | gib => 30
  | tib => 40

theorem size_eq (scale : Scale) : scale.size = 2 ^ scale.exponent := by
  cases scale <;> rfl

theorem size_pos (scale : Scale) : 0 < scale.size := by
  rw [size_eq]
  exact Nat.two_pow_pos _

theorem size_of_le {count : Nat} (h : 1 ≤ count) : (Scale.of count).size ≤ count := by
  unfold Scale.of
  split_ifs <;> assumption

theorem size_le_size_of {count : Nat} {scale : Scale} (h : scale.size ≤ count) :
    scale.size ≤ (Scale.of count).size := by
  unfold Scale.of
  split_ifs <;> cases scale <;> simp only [size] at * <;> omega

theorem of_eq_byte_iff {count : Nat} : Scale.of count = byte ↔ count < 1024 := by
  unfold Scale.of
  split_ifs <;> simp only [size] at * <;> simp <;> omega

/-- Sizes of different units have the larger unit between them. -/
theorem lt_size_of {count other : Nat} (h : (Scale.of count).size < (Scale.of other).size) :
    count < (Scale.of other).size := by
  rcases Nat.lt_or_ge count (Scale.of other).size with hlt | hge
  · exact hlt
  · exact absurd (size_le_size_of hge) (Nat.not_le.2 h)

theorem of_eq_of_le {count other : Nat} (h : count ≤ other)
    (hunit : (Scale.of other).size ≤ (Scale.of count).size) : Scale.of count = Scale.of other := by
  have hinj : ∀ scale larger : Scale, scale.size = larger.size → scale = larger := by
    intro scale larger
    cases scale <;> cases larger <;> simp [size]
  refine hinj _ _ (Nat.le_antisymm ?_ hunit)
  rcases Nat.eq_zero_or_pos count with rfl | hpos
  · exact size_pos _
  · exact size_le_size_of (Nat.le_trans (size_of_le hpos) h)

theorem size_dvd_size {scale larger : Scale} (h : scale.size ≤ larger.size) :
    scale.size ∣ larger.size := by
  rw [size_eq, size_eq] at h ⊢
  exact Nat.pow_dvd_pow 2 ((Nat.pow_le_pow_iff_right (by omega)).1 h)

end Scale

/-! ## Tenths -/

/-- Less than a unit is not shown as more than that unit, in whatever smaller unit. -/
theorem tenths_mul_size_le {count : Nat} {scale larger : Scale} (hunit : scale.size ≤ larger.size)
    (h : count ≤ larger.size) : tenths count scale * scale.size ≤ 10 * larger.size := by
  have hround : roundSignificant count ≤ larger.size := by
    rw [larger.size_eq] at h ⊢
    exact roundSignificant_le h
  obtain ⟨parts, hparts⟩ := Scale.size_dvd_size hunit
  have hlarger : 10 * parts * scale.size = 10 * larger.size := by
    rw [hparts, Nat.mul_comm scale.size, Nat.mul_assoc]
  have htenths : tenths count scale ≤ 10 * parts := by
    refine roundQuotient_le scale.size_pos ?_
    rw [hlarger]
    exact Nat.mul_le_mul_left 10 hround
  rw [← hlarger]
  exact Nat.mul_le_mul_right _ htenths

theorem le_tenths {count : Nat} {scale : Scale} (h : scale.size ≤ count) :
    10 ≤ tenths count scale := by
  have hround : scale.size ≤ roundSignificant count := by
    rw [scale.size_eq] at h ⊢
    exact le_roundSignificant h
  exact le_roundQuotient scale.size_pos (Nat.mul_le_mul_left 10 hround)

/-- The number of tenths that a size is shown as, in its own unit. -/
def shownTenths (count : Nat) : Nat := tenths count (Scale.of count)

/-- Of two sizes, the larger is never shown as the smaller amount, also in another unit. -/
theorem shownTenths_mul_size_mono {count other : Nat} (h : count ≤ other) :
    shownTenths count * (Scale.of count).size ≤ shownTenths other * (Scale.of other).size := by
  rcases Nat.lt_or_ge (Scale.of count).size (Scale.of other).size with hunit | hunit
  · -- The larger unit lies between them, and the larger size reaches it.
    have hother : (Scale.of other).size ≤ other := Scale.size_of_le (by
      rcases Nat.eq_zero_or_pos other with rfl | hpos
      · obtain rfl : count = 0 := by omega
        exact absurd hunit (Nat.lt_irrefl _)
      · exact hpos)
    calc shownTenths count * (Scale.of count).size
        ≤ 10 * (Scale.of other).size :=
          tenths_mul_size_le (Nat.le_of_lt hunit) (Nat.le_of_lt (Scale.lt_size_of hunit))
      _ ≤ shownTenths other * (Scale.of other).size :=
          Nat.mul_le_mul_right _ (le_tenths hother)
  · have hsame : Scale.of count = Scale.of other := Scale.of_eq_of_le h hunit
    rw [shownTenths, shownTenths, hsame]
    exact Nat.mul_le_mul_right _ (roundQuotient_mono (Scale.size_pos _)
      (Nat.mul_le_mul_left 10 (roundSignificant_mono h)))

theorem shownTenths_of_lt {count : Nat} (h : count < 1024) : shownTenths count = 10 * count := by
  have hunit : Scale.byte.size = 1 := rfl
  have hexact := roundQuotient_mul (10 * count) (by omega : 0 < 1)
  rw [shownTenths, Scale.of_eq_byte_iff.2 h, tenths, roundSignificant_of_lt (by omega), hunit]
  rw [Nat.mul_one] at hexact
  exact hexact

/-! ## Reading texts -/

/-- What the text of a size says: so many tenths of a unit. -/
structure Shown where
  tenths : Nat
  scale : Scale
  deriving DecidableEq, Repr, Inhabited

/-- The number of bytes that a text speaks of. -/
def Shown.bytes (shown : Shown) : ℚ := shown.tenths / 10 * shown.scale.size

/-- The unit with this symbol. -/
def Scale.ofSymbol? (symbol : List Char) : Option Scale :=
  all.find? fun scale => scale.symbol.toList == symbol

/-- What a text says, if it is a whole number or one with one decimal, and then a unit. -/
def read? (text : String) : Option Shown :=
  let whole := readNumeral 10 (text.toList.takeWhile Char.isDigit)
  match text.toList.dropWhile Char.isDigit with
  | ' ' :: symbol => (Scale.ofSymbol? symbol).map fun scale => ⟨10 * whole, scale⟩
  | '.' :: tenth :: ' ' :: symbol =>
    (Scale.ofSymbol? symbol).map fun scale => ⟨10 * whole + digitValue tenth, scale⟩
  | _ => none

theorem Scale.ofSymbol?_symbol (scale : Scale) : ofSymbol? scale.symbol.toList = some scale := by
  cases scale <;> decide

/-- A numeral ends where something else begins. -/
theorem span_decimal (n : Nat) {c : Char} (rest : List Char) (h : c.isDigit = false) :
    ((decimal n).toList ++ c :: rest).takeWhile Char.isDigit = Nat.toDigits 10 n ∧
      ((decimal n).toList ++ c :: rest).dropWhile Char.isDigit = c :: rest := by
  have hdigits : ∀ d ∈ Nat.toDigits 10 n, d.isDigit = true := fun d hd =>
    Nat.isDigit_of_mem_toDigits (by omega) (by omega) hd
  rw [toList_decimal, List.takeWhile_append_of_pos hdigits, List.dropWhile_append_of_pos hdigits]
  simp [h]

theorem format_of_lt {count : Nat} (h : count < 1024) : format count = decimal count ++ " B" := by
  simp [format, Scale.of_eq_byte_iff.2 h]

theorem format_of_le {count : Nat} (h : 1024 ≤ count) :
    format count = decimal (shownTenths count / 10) ++ "." ++ decimal (shownTenths count % 10)
      ++ " " ++ (Scale.of count).symbol := by
  have hne : Scale.of count ≠ .byte := fun heq => Nat.not_lt.2 h (Scale.of_eq_byte_iff.1 heq)
  unfold format shownTenths
  cases hscale : Scale.of count with
  | byte => exact absurd hscale hne
  | kib | mib | gib | tib => rfl

/-- What is shown is what is read. -/
theorem read?_format (count : Nat) :
    read? (format count) = some ⟨shownTenths count, Scale.of count⟩ := by
  rcases Nat.lt_or_ge count 1024 with h | h
  · have htext : (format count).toList = (decimal count).toList ++ ' ' :: Scale.byte.symbol.toList := by
      rw [format_of_lt h, String.toList_append]
      rfl
    obtain ⟨hwhole, hrest⟩ := span_decimal count Scale.byte.symbol.toList (c := ' ') (by decide)
    simp only [read?, htext, hwhole, hrest, Scale.ofSymbol?_symbol, Option.map_some,
      readNumeral_toDigits (by omega : 1 < 10) (by omega), shownTenths_of_lt h,
      Scale.of_eq_byte_iff.2 h]
  · have hlt : shownTenths count % 10 < 10 := Nat.mod_lt _ (by omega)
    have htext : (format count).toList = (decimal (shownTenths count / 10)).toList
        ++ '.' :: Nat.digitChar (shownTenths count % 10) :: ' '
          :: (Scale.of count).symbol.toList := by
      simp [format_of_le h, toList_decimal, Nat.toDigits_of_lt_base hlt]
    obtain ⟨hwhole, hrest⟩ := span_decimal (shownTenths count / 10) (c := '.')
      (Nat.digitChar (shownTenths count % 10) :: ' ' :: (Scale.of count).symbol.toList) (by decide)
    simp only [read?, htext, hwhole, hrest, Scale.ofSymbol?_symbol, Option.map_some,
      readNumeral_toDigits (by omega : 1 < 10) (by omega),
      digitValue_digitChar _ (Nat.lt_trans hlt (by omega)), Nat.div_add_mod]

/-! ## The texts of sizes -/

/-- What is known of `shown` as the text of `count` bytes. -/
structure Rounded (count : Nat) (shown : Shown) : Prop where
  /-- It is what the text says. -/
  read_eq : read? (format count) = some shown
  /-- The unit is one that the size reaches, unless there is nothing at all. -/
  reached : 1 ≤ count → shown.scale.size ≤ count
  /-- It is the largest such unit. -/
  largest : ∀ scale : Scale, scale.size ≤ count → scale.size ≤ shown.scale.size
  /-- Below one KiB the text is the number. -/
  exact : count < 1024 → shown.scale = .byte ∧ format count = decimal count ++ " B"
  /-- From there on it is a number with one decimal and the unit. -/
  one_decimal : 1024 ≤ count → format count = decimal (shown.tenths / 10) ++ "."
    ++ decimal (shown.tenths % 10) ++ " " ++ shown.scale.symbol
  /-- No tenth is nearer, as long as there is one rounding only. -/
  nearest : 1024 ≤ count → count < 2 ^ 53 →
    |(10 * count : ℚ) / shown.scale.size - shown.tenths| ≤ 1 / 2
  /-- Of two that are as near, it is the even one. -/
  tie_to_even : 1024 ≤ count → count < 2 ^ 53 →
    |(10 * count : ℚ) / shown.scale.size - shown.tenths| = 1 / 2 → shown.tenths % 2 = 0

/-- The exact number of tenths is what is rounded, as long as that is the only rounding. -/
theorem shownTenths_of_lt_two_pow {count : Nat} (h : count < 2 ^ 53) :
    shownTenths count = roundQuotient (10 * count) (Scale.of count).size := by
  rw [shownTenths, tenths, roundSignificant_of_lt h]

theorem rounded (count : Nat) : Rounded count ⟨shownTenths count, Scale.of count⟩ where
  read_eq := read?_format count
  reached := Scale.size_of_le
  largest := fun _ => Scale.size_le_size_of
  exact := fun h => ⟨Scale.of_eq_byte_iff.2 h, format_of_lt h⟩
  one_decimal := format_of_le
  nearest := fun _ hlt => by
    have h := abs_exact_sub_le (10 * count) (Scale.of count).size_pos
    rw [← shownTenths_of_lt_two_pow hlt] at h
    exact_mod_cast h
  tie_to_even := fun _ hlt htie => by
    rw [shownTenths_of_lt_two_pow hlt] at htie ⊢
    exact even_of_abs_eq (Scale.size_pos _) (by exact_mod_cast htie)

/-- Sizes are rounded to the nearest tenth of their largest unit, and of two sizes the larger never
reads like less than the smaller. -/
theorem sizes_rounded {count other : Nat} (h : count ≤ other) :
    ∃ shown larger, Rounded count shown ∧ Rounded other larger ∧ shown.bytes ≤ larger.bytes := by
  refine ⟨_, _, rounded count, rounded other, ?_⟩
  have hmono := shownTenths_mul_size_mono h
  have hmono : (shownTenths count * (Scale.of count).size : ℚ)
      ≤ shownTenths other * (Scale.of other).size := by exact_mod_cast hmono
  simp only [Shown.bytes]
  linarith only [hmono]

/-- One byte less than a MiB reads like as much as a MiB, and not like more. -/
theorem nearly_mib_rounded :
    ∃ shown larger, read? (format 1048575) = some shown ∧ read? (format 1048576) = some larger ∧
      format 1048575 = "1024.0 KiB" ∧ format 1048576 = "1.0 MiB" ∧ shown.bytes ≤ larger.bytes := by
  obtain ⟨shown, larger, hshown, hlarger, hle⟩ :=
    sizes_rounded (by omega : 1048575 ≤ 1048576)
  exact ⟨shown, larger, hshown.read_eq, hlarger.read_eq, by decide +kernel, by decide +kernel, hle⟩

end DiskScope.Text.Size
