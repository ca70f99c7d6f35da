/-
  DiskScope/Proofs/Xfs/FlagNames.lean --- the text of a feature word accounts for every bit.

  WHAT THIS FILE IS FOR.  A feature word is shown as the names of its bits and one number for the
  bits without a name.  Here it is shown that the flags that are listed and the number that is
  left over share out the set bits of the word: each of them is in one place, so together they
  add up to the word.

  HOW.  A word is the list of its set bits (`Nat.bitIndices`).  Those of the listed flags, followed
  by those of what is left over, are the same bits in another order (`bits_perm`); that they
  add up to the word follows.

  THE TEXT.  `readNames` is the other side: it cuts a text at its bars and adds up what the items
  stand for.  It gives the word back if the names of the table can be told from each other,
  from `none` and from numbers, so that two words with the same text are the same.

  MAIN STATEMENTS.

      WellFormed.testBit_unnamed    which bits are left over
      WellFormed.accounts           the listed flags and what is left over are the word
      readNames_names               the word, read from its text
      names_accounted               all of it, for any table
-/
import DiskScope.Proofs.Text.Numeral
import DiskScope.Xfs.Feature
import Mathlib.Data.Nat.BitIndices
import Mathlib.Data.Nat.Bitwise

set_option autoImplicit false

namespace DiskScope

namespace Text

/-! ## Items -/

theorem joinWith_eq_intercalate (separator : String) (texts : List String) :
    joinWith separator texts = separator.intercalate texts := by
  fun_induction joinWith separator texts with
  | case1 => exact String.intercalate_nil.symm
  | case2 text => exact String.intercalate_singleton.symm
  | case3 text rest hrest ih =>
    rw [ih, String.intercalate_cons_of_ne_nil fun hnil => hrest hnil]

/-- Items without a bar are found again where they were joined. -/
theorem splitOn_joinWith {texts : List String} (hbar : ∀ text ∈ texts, '|' ∉ text.toList)
    (hsome : texts ≠ []) : (joinWith "|" texts).toList.splitOn '|' = texts.map String.toList := by
  rw [joinWith_eq_intercalate, String.toList_intercalate]
  refine List.splitOn_intercalate '|' (fun item hitem => ?_) (mt List.map_eq_nil_iff.1 hsome)
  obtain ⟨text, htext, rfl⟩ := List.mem_map.1 hitem
  exact hbar text htext

theorem toList_hex (n : Nat) : (hex n).toList = '0' :: 'x' :: Nat.toDigits 16 n := by
  simp [hex, hexDigits, numeral]

theorem bar_notMem_hex (n : Nat) : '|' ∉ (hex n).toList := by
  intro hbar
  have hdigits : '|' ∈ Nat.toDigits 16 n := by simpa [toList_hex] using hbar
  obtain ⟨d, hlt, hdigit⟩ := digit_of_mem_toDigits (by omega) hdigits
  have hnone : ∀ d < 16, '|' ≠ Nat.digitChar d := by decide
  exact hnone d hlt hdigit

/-- A text that does not begin like a marked number is none. -/
theorem ne_hex_of_not_prefix {text : String} (h : ¬ ['0', 'x'] <+: text.toList) (n : Nat) :
    text ≠ hex n := by
  rintro rfl
  exact h ⟨Nat.toDigits 16 n, (toList_hex n).symm⟩

end Text

namespace Xfs.Flag

open Text

variable {table : List Flag} {value : Nat} {flag : Flag}

/-! ## Tables -/

/-- The entries of a table are single bits, no two of them the same, and no name has a bar in it. -/
structure WellFormed (table : List Flag) : Prop where
  single : ∀ flag ∈ table, flag.bit.isPowerOfTwo
  bits_nodup : (table.map Flag.bit).Nodup
  bar_notMem : ∀ flag ∈ table, '|' ∉ flag.name.toList

/-- The names of a table can be told from each other, from `none` and from numbers. -/
structure Legible (table : List Flag) : Prop where
  names_nodup : (table.map Flag.name).Nodup
  name_ne_none : ∀ flag ∈ table, flag.name ≠ "none"
  name_ne_hex : ∀ flag ∈ table, ∀ n, flag.name ≠ hex n

/-- The index of the bit of a flag. -/
def index (flag : Flag) : Nat := flag.bit.log2

theorem WellFormed.bit_eq (h : WellFormed table) (hflag : flag ∈ table) :
    flag.bit = 2 ^ flag.index := by
  obtain ⟨i, hbit⟩ := h.single flag hflag
  rw [index, hbit, Nat.log2_two_pow]

theorem WellFormed.isSet_iff (h : WellFormed table) (hflag : flag ∈ table) :
    flag.isSet value = true ↔ value.testBit flag.index = true := by
  rw [isSet, h.bit_eq hflag, Nat.and_two_pow]
  cases value.testBit flag.index <;> simp

/-! ## What is left over -/

/-- The bits that have a name. -/
def named (table : List Flag) : Nat := table.foldl (fun known flag => known ||| flag.bit) 0

theorem unnamed_eq (value : Nat) (table : List Flag) :
    unnamed value table = value ^^^ (value &&& named table) := rfl

theorem testBit_foldl_or (known i : Nat) :
    (table.foldl (fun known flag => known ||| flag.bit) known).testBit i = true ↔
      known.testBit i = true ∨ ∃ flag ∈ table, flag.bit.testBit i = true := by
  induction table generalizing known with
  | nil => simp
  | cons flag rest ih =>
    rw [List.foldl_cons, ih, Nat.testBit_or, Bool.or_eq_true, or_assoc]
    simp only [List.mem_cons, exists_eq_or_imp]

theorem WellFormed.testBit_named (h : WellFormed table) (i : Nat) :
    (named table).testBit i = true ↔ ∃ flag ∈ table, flag.bit = 2 ^ i := by
  rw [named, testBit_foldl_or, Nat.zero_testBit]
  refine (or_iff_right (by decide)).trans (exists_congr fun flag => and_congr_right fun hflag => ?_)
  rw [h.bit_eq hflag, Nat.testBit_two_pow, decide_eq_true_iff]
  exact (Nat.pow_right_inj (by decide)).symm

/-- The bits that are left over are those that no flag of the table has. -/
theorem WellFormed.testBit_unnamed (h : WellFormed table) (i : Nat) :
    (unnamed value table).testBit i = true ↔
      value.testBit i = true ∧ ∀ flag ∈ table, flag.bit ≠ 2 ^ i := by
  have hcleared : (unnamed value table).testBit i = true ↔
      value.testBit i = true ∧ ¬ (named table).testBit i = true := by
    rw [unnamed_eq, Nat.testBit_xor, Nat.testBit_and]
    cases value.testBit i <;> simp
  rw [hcleared, h.testBit_named]
  simp only [not_exists, not_and, ne_eq]

/-! ## The parts of a word -/

/-- The flags of the table that are set in a word. -/
def listed (value : Nat) (table : List Flag) : List Flag := table.filter (·.isSet value)

theorem items_eq (value : Nat) (table : List Flag) :
    items value table = (listed value table).map Flag.name ++
      if unnamed value table = 0 then [] else [hex (unnamed value table)] := rfl

theorem mem_listed : flag ∈ listed value table ↔ flag ∈ table ∧ flag.isSet value = true :=
  List.mem_filter

theorem listed_sublist (value : Nat) (table : List Flag) : (listed value table).Sublist table :=
  List.filter_sublist

/-- The bits of the flags that are listed. -/
theorem WellFormed.mem_map_index (h : WellFormed table) (i : Nat) :
    i ∈ (listed value table).map index ↔
      value.testBit i = true ∧ ∃ flag ∈ table, flag.bit = 2 ^ i := by
  rw [List.mem_map]
  constructor
  · rintro ⟨flag, hlisted, rfl⟩
    obtain ⟨hflag, hset⟩ := mem_listed.1 hlisted
    exact ⟨(h.isSet_iff hflag).1 hset, flag, hflag, h.bit_eq hflag⟩
  · rintro ⟨hset, flag, hflag, hbit⟩
    have hindex : flag.index = i := by rw [index, hbit, Nat.log2_two_pow]
    exact ⟨flag, mem_listed.2 ⟨hflag, (h.isSet_iff hflag).2 (hindex ▸ hset)⟩, hindex⟩

theorem WellFormed.map_two_pow (h : WellFormed table) (value : Nat) :
    ((listed value table).map index).map (fun i => 2 ^ i) = (listed value table).map Flag.bit := by
  rw [List.map_map]
  exact List.map_congr_left fun flag hflag => (h.bit_eq (mem_listed.1 hflag).1).symm

theorem WellFormed.nodup_map_index (h : WellFormed table) :
    ((listed value table).map index).Nodup := by
  refine List.Nodup.of_map (fun i => 2 ^ i) ?_
  rw [h.map_two_pow]
  exact h.bits_nodup.sublist ((listed_sublist value table).map _)

/-- The bits of a word are those of the flags that are listed and those that are left over. -/
theorem WellFormed.bits_perm (h : WellFormed table) (value : Nat) :
    value.bitIndices.Perm
      ((listed value table).map index ++ (unnamed value table).bitIndices) := by
  have hapart : ((listed value table).map index ++ (unnamed value table).bitIndices).Nodup := by
    -- What is left over has no flag, so no bit is in both lists.
    refine List.nodup_append.2 ⟨h.nodup_map_index, Nat.bitIndices_nodup, ?_⟩
    rintro i hlisted _ hrest rfl
    obtain ⟨-, flag, hflag, hbit⟩ := (h.mem_map_index i).1 hlisted
    obtain ⟨-, hnone⟩ := (h.testBit_unnamed i).1 (Nat.mem_bitIndices.1 hrest)
    exact hnone flag hflag hbit
  refine (List.perm_ext_iff_of_nodup Nat.bitIndices_nodup hapart).2 fun i => ?_
  rw [List.mem_append, h.mem_map_index, Nat.mem_bitIndices, Nat.mem_bitIndices,
    h.testBit_unnamed, ← and_or_left]
  refine (and_iff_left ?_).symm
  by_cases hnamed : ∃ flag ∈ table, flag.bit = 2 ^ i
  · exact .inl hnamed
  · exact .inr fun flag hflag hbit => hnamed ⟨flag, hflag, hbit⟩

/-- Together they add up to the word. -/
theorem WellFormed.sum_eq (h : WellFormed table) (value : Nat) :
    ((listed value table).map Flag.bit).sum + unnamed value table = value := by
  calc ((listed value table).map Flag.bit).sum + unnamed value table
      = (((listed value table).map index).map (fun i => 2 ^ i)).sum +
          ((unnamed value table).bitIndices.map (fun i => 2 ^ i)).sum := by
        rw [h.map_two_pow, Nat.sum_map_two_pow_bitIndices]
    _ = (value.bitIndices.map (fun i => 2 ^ i)).sum := by
        rw [((h.bits_perm value).map _).sum_eq, List.map_append, List.sum_append]
    _ = value := Nat.sum_map_two_pow_bitIndices value

/-- `shown` are the flags of a word that have names, in the order of the table, and `rest` is what
is left over. -/
structure Accounts (table : List Flag) (value : Nat) (shown : List Flag) (rest : Nat) : Prop where
  sublist : shown.Sublist table
  /-- The flags are those whose bits are set. -/
  mem_iff : ∀ flag ∈ table, flag ∈ shown ↔ ∃ i, flag.bit = 2 ^ i ∧ value.testBit i = true
  /-- The other bits that are set are left over. -/
  testBit_rest : ∀ i, rest.testBit i = true ↔
    value.testBit i = true ∧ ∀ flag ∈ table, flag.bit ≠ 2 ^ i
  /-- Something is left over if and only if there are such bits. -/
  rest_ne_zero_iff : rest ≠ 0 ↔ ∃ i, value.testBit i = true ∧ ∀ flag ∈ table, flag.bit ≠ 2 ^ i
  /-- Nothing is lost, and nothing counted twice. -/
  sum_eq : (shown.map Flag.bit).sum + rest = value

theorem WellFormed.accounts (h : WellFormed table) (value : Nat) :
    Accounts table value (listed value table) (unnamed value table) where
  sublist := listed_sublist value table
  mem_iff flag hflag := by
    rw [mem_listed, and_iff_right hflag, h.isSet_iff hflag]
    constructor
    · exact fun hset => ⟨_, h.bit_eq hflag, hset⟩
    · rintro ⟨i, hbit, hset⟩
      rwa [index, hbit, Nat.log2_two_pow]
  testBit_rest := h.testBit_unnamed
  rest_ne_zero_iff := by
    simp only [← h.testBit_unnamed]
    exact ⟨Nat.exists_testBit_of_ne_zero, fun ⟨i, hi⟩ hzero => by simp [hzero] at hi⟩
  sum_eq := h.sum_eq value

/-! ## Texts -/

/-- Only zero has no items. -/
theorem WellFormed.items_eq_nil_iff (h : WellFormed table) :
    items value table = [] ↔ value = 0 := by
  rw [items_eq, List.append_eq_nil_iff, List.map_eq_nil_iff]
  constructor
  · rintro ⟨hlisted, hrest⟩
    have hzero : unnamed value table = 0 := by_contra fun hsome => by simp [hsome] at hrest
    have hsum := h.sum_eq value
    rw [hlisted, hzero] at hsum
    exact hsum.symm
  · rintro rfl
    have hsum := h.sum_eq 0
    have hrest : unnamed 0 table = 0 := by omega
    refine ⟨List.filter_eq_nil_iff.2 fun flag _ => ?_, if_pos hrest⟩
    simp [isSet]

theorem names_of_nil (h : items value table = []) : names value table = "none" := by
  rw [names, h]

theorem names_of_ne_nil (h : items value table ≠ []) :
    names value table = joinWith "|" (items value table) := by
  unfold names
  split
  · contradiction
  · rfl

theorem WellFormed.bar_notMem_items (h : WellFormed table) :
    ∀ text ∈ items value table, '|' ∉ text.toList := by
  intro text htext
  rw [items_eq, List.mem_append] at htext
  rcases htext with hname | hrest
  · obtain ⟨flag, hlisted, rfl⟩ := List.mem_map.1 hname
    exact h.bar_notMem flag (mem_listed.1 hlisted).1
  · split at hrest
    · cases hrest
    · rw [List.mem_singleton.1 hrest]
      exact bar_notMem_hex _

/-- A text that is cut at its bars gives the items. -/
theorem WellFormed.splitOn_names (h : WellFormed table) (hvalue : value ≠ 0) :
    (names value table).toList.splitOn '|' = (items value table).map String.toList := by
  have hsome : items value table ≠ [] := mt h.items_eq_nil_iff.1 hvalue
  rw [names_of_ne_nil hsome, splitOn_joinWith h.bar_notMem_items hsome]

theorem WellFormed.names_eq_none_iff (h : WellFormed table)
    (hnone : ∀ flag ∈ table, flag.name ≠ "none") : names value table = "none" ↔ value = 0 := by
  refine ⟨fun hnames => ?_, fun hzero => names_of_nil (h.items_eq_nil_iff.2 hzero)⟩
  by_contra hvalue
  -- Cut at its bars, `none` is one item, which is neither a name nor a number.
  have hitems := h.splitOn_names hvalue
  rw [hnames, List.splitOn_eq_singleton (by decide)] at hitems
  have hitem : "none" ∈ items value table := by
    have hmem : "none".toList ∈ (items value table).map String.toList :=
      hitems ▸ List.mem_singleton_self _
    obtain ⟨text, htext, hsame⟩ := List.mem_map.1 hmem
    rwa [String.toList_injective hsame] at htext
  rw [items_eq, List.mem_append] at hitem
  rcases hitem with hname | hrest
  · obtain ⟨flag, hlisted, hsame⟩ := List.mem_map.1 hname
    exact hnone flag (mem_listed.1 hlisted).1 hsame
  · split at hrest
    · cases hrest
    · exact ne_hex_of_not_prefix (by decide) _ (List.mem_singleton.1 hrest)

/-! ## Reading texts -/

/-- What an item stands for: the bit of that name, or else a marked hexadecimal number. -/
def itemValue (table : List Flag) (item : List Char) : Nat :=
  match table.find? fun flag => flag.name.toList == item with
  | some flag => flag.bit
  | none => readNumeral 16 (item.drop 2)

/-- The word that a text shows. -/
def readNames (table : List Flag) (text : String) : Nat :=
  if text = "none" then 0 else ((text.toList.splitOn '|').map (itemValue table)).sum

theorem Legible.itemValue_name (h : Legible table) (hflag : flag ∈ table) :
    itemValue table flag.name.toList = flag.bit := by
  unfold itemValue
  cases hfind : table.find? fun other => other.name.toList == flag.name.toList with
  | none => exact absurd (beq_self_eq_true _) (List.find?_eq_none.1 hfind flag hflag)
  | some other =>
    have hsame : other.name = flag.name :=
      String.toList_injective (by simpa using List.find?_some hfind)
    rw [List.inj_on_of_nodup_map h.names_nodup (List.mem_of_find?_eq_some hfind) hflag hsame]

theorem Legible.itemValue_hex (h : Legible table) (n : Nat) :
    itemValue table (hex n).toList = n := by
  have hfind : (table.find? fun flag => flag.name.toList == (hex n).toList) = none := by
    refine List.find?_eq_none.2 fun flag hflag hsame => h.name_ne_hex flag hflag n ?_
    exact String.toList_injective (by simpa using hsame)
  rw [itemValue, hfind, toList_hex]
  exact readNumeral_toDigits (by omega) (by omega) n

/-- The items of a word stand for its parts. -/
theorem Legible.sum_itemValue (h : Legible table) (value : Nat) :
    (((items value table).map String.toList).map (itemValue table)).sum =
      ((listed value table).map Flag.bit).sum + unnamed value table := by
  have hnames : (((listed value table).map Flag.name).map String.toList).map (itemValue table) =
      (listed value table).map Flag.bit := by
    rw [List.map_map, List.map_map]
    exact List.map_congr_left fun flag hflag => h.itemValue_name (mem_listed.1 hflag).1
  rw [items_eq, List.map_append, List.map_append, List.sum_append, hnames]
  congr 1
  split
  · rename_i hrest
    exact hrest.symm
  · exact (List.sum_singleton).trans (h.itemValue_hex _)

/-- A word is read from its text. -/
theorem readNames_names (hform : WellFormed table) (hlegible : Legible table) (value : Nat) :
    readNames table (names value table) = value := by
  have hnone : names value table = "none" ↔ value = 0 :=
    hform.names_eq_none_iff hlegible.name_ne_none
  by_cases hvalue : value = 0
  · rw [readNames, if_pos (hnone.2 hvalue), hvalue]
  · rw [readNames, if_neg (mt hnone.1 hvalue), hform.splitOn_names hvalue, hlegible.sum_itemValue,
      hform.sum_eq]

/-! ## All of it -/

/-- The text of a word is `none` or items between bars, which are the names of the bits that are set
in the order of the table, and one number for those without a name if there are any; `none` is
only the text of zero, unless an entry has that name; and where the names can be told apart
the word is read from its text, so that no two words have the same. -/
theorem names_accounted {table : List Flag} (hform : WellFormed table) :
    (∀ value, ∃ shown rest, Accounts table value shown rest ∧
      names value table =
        if value = 0 then "none"
        else "|".intercalate (shown.map Flag.name ++ if rest = 0 then [] else [hex rest])) ∧
    ((∀ flag ∈ table, flag.name ≠ "none") →
      ∀ value, names value table = "none" ↔ value = 0) ∧
    (Legible table →
      (∀ value, readNames table (names value table) = value) ∧
        Function.Injective fun value => names value table) := by
  refine ⟨fun value => ⟨_, _, hform.accounts value, ?_⟩,
    fun hnone value => hform.names_eq_none_iff hnone, fun hlegible => ⟨?_, ?_⟩⟩
  · split
    · rename_i hzero
      exact names_of_nil (hform.items_eq_nil_iff.2 hzero)
    · rename_i hvalue
      rw [names_of_ne_nil (mt hform.items_eq_nil_iff.1 hvalue), joinWith_eq_intercalate, items_eq]
  · exact readNames_names hform hlegible
  · exact Function.LeftInverse.injective (g := readNames table) (readNames_names hform hlegible)

/-- The tables of the feature words. -/
def tables : List (List Flag) :=
  [versionFlags, features2Flags, roCompatFlags, incompatFlags, logIncompatFlags]

theorem tables_wellFormed : ∀ table ∈ tables, WellFormed table := by
  have hsingle : ∀ table ∈ tables, ∀ flag ∈ table, flag.bit.isPowerOfTwo := by decide
  have hbits : ∀ table ∈ tables, (table.map Flag.bit).Nodup := by decide
  have hbar : ∀ table ∈ tables, ∀ flag ∈ table, '|' ∉ flag.name.toList := by decide +kernel
  exact fun table htable => ⟨hsingle table htable, hbits table htable, hbar table htable⟩

theorem tables_legible : ∀ table ∈ tables, Legible table := by
  have hnames : ∀ table ∈ tables, (table.map Flag.name).Nodup := by decide +kernel
  have hnone : ∀ table ∈ tables, ∀ flag ∈ table, flag.name ≠ "none" := by decide +kernel
  have hhex : ∀ table ∈ tables, ∀ flag ∈ table, ¬ ['0', 'x'] <+: flag.name.toList := by
    decide +kernel
  exact fun table htable => ⟨hnames table htable, hnone table htable,
    fun flag hflag => ne_hex_of_not_prefix (hhex table htable flag hflag)⟩

/-- A word with a bit that has a name and one that has none. -/
theorem mixedWord_accounted :
    WellFormed incompatFlags ∧ Legible incompatFlags ∧
      (∃ shown rest, Accounts incompatFlags 0x10001 shown rest) ∧
      names 0x10001 incompatFlags = "FTYPE|0x10000" ∧
      (names 0x10001 incompatFlags = "none" ↔ 0x10001 = 0) ∧
      readNames incompatFlags "FTYPE|0x10000" = 0x10001 := by
  have hform : WellFormed incompatFlags := tables_wellFormed _ (by decide)
  have hlegible : Legible incompatFlags := tables_legible _ (by decide)
  have htext : names 0x10001 incompatFlags = "FTYPE|0x10000" := by decide +kernel
  obtain ⟨haccounts, hnone, hread⟩ := names_accounted hform
  obtain ⟨shown, rest, hparts, -⟩ := haccounts 0x10001
  exact ⟨hform, hlegible, ⟨shown, rest, hparts⟩, htext, hnone hlegible.name_ne_none 0x10001,
    htext ▸ (hread hlegible).1 0x10001⟩

end Xfs.Flag

end DiskScope
