/-
  DiskScope/Proofs/Xfs/Validation.lean --- which superblocks are believed.

  WHAT THIS FILE IS FOR.  A superblock tells each of four sizes twice, as a number and by
  its logarithm.  Validation compares the two.  What becomes of a pair that does not agree is for
  the mode to say: a strict run ends there, a lenient one warns and compares the rest.  Here both
  runs are computed from one list, the pairs that do not agree.

  LARGE LOGARITHMS.  A logarithm is a byte of its own and may be larger than a word has bits.  No
  shift can be made with it then; but no size that a field can hold is such a power either, so
  that refusing it is the same as comparing.

  MAIN STATEMENTS.

      checkPairs_strict        the first pair that does not agree ends a strict run
      checkPairs_bestEffort    a lenient run has one warning for each
      validation_policy        superblocks under both modes
-/
import DiskScope.Proofs.Xfs.FieldTables
import DiskScope.Proofs.Xfs.LoadedGroup

set_option autoImplicit false

namespace DiskScope.Xfs.Superblock

/-! ## One pair -/

namespace SizePair

variable {pair : SizePair} {location : String}

/-- The size is the power of two that the logarithm names. -/
def Agrees (pair : SizePair) : Prop := pair.size = 2 ^ pair.log2

instance (pair : SizePair) : Decidable pair.Agrees := inferInstanceAs (Decidable (_ = _))

/-- A size of one word has a logarithm that it can be shifted by. -/
theorem Agrees.log2_lt (h : pair.Agrees) (hsize : pair.size < 2 ^ 64) : pair.log2 < 64 := by
  rw [h] at hsize
  exact (Nat.pow_lt_pow_iff_right (by decide)).1 hsize

theorem check_of_agrees (h : pair.Agrees) (hsize : pair.size < 2 ^ 64) :
    pair.check location = .ok () := by
  refine if_pos ?_
  rw [isConsistent, Bool.and_eq_true, decide_eq_true_eq, beq_iff_eq, Nat.one_shiftLeft]
  exact ⟨h.log2_lt hsize, h⟩

theorem check_of_not_agrees (h : ¬ pair.Agrees) :
    pair.check location = .error (pair.fault location) := by
  refine if_neg fun hconsistent => h ?_
  rw [isConsistent, Bool.and_eq_true, beq_iff_eq, Nat.one_shiftLeft] at hconsistent
  exact hconsistent.2

end SizePair

/-! ## A row of pairs -/

variable {pair : SizePair} {pairs rest : List SizePair} {location : String} {mode : Mode}

/-- The pairs that do not agree, in order. -/
def disagreeing (pairs : List SizePair) : List SizePair := pairs.filter (¬ ·.Agrees)

theorem disagreeing_cons_of_agrees (h : pair.Agrees) :
    disagreeing (pair :: rest) = disagreeing rest :=
  List.filter_cons_of_neg (by simpa using h)

theorem disagreeing_cons_of_not_agrees (h : ¬ pair.Agrees) :
    disagreeing (pair :: rest) = pair :: disagreeing rest :=
  List.filter_cons_of_pos (by simpa using h)

theorem disagreeing_eq_nil_iff : disagreeing pairs = [] ↔ ∀ pair ∈ pairs, pair.Agrees := by
  simp [disagreeing]

theorem checkPairs_cons_of_agrees (h : pair.Agrees) (hsize : pair.size < 2 ^ 64) :
    checkPairs location mode (pair :: rest) = checkPairs location mode rest := by
  rw [checkPairs, SizePair.check_of_agrees h hsize]
  exact Traced.pure_bind true _

theorem checkPairs_cons_strict (h : ¬ pair.Agrees) :
    checkPairs location .strict (pair :: rest) = .fail (pair.fault location) := by
  rw [checkPairs, SizePair.check_of_not_agrees h]
  exact Traced.bind_of_error rfl _

theorem checkPairs_cons_bestEffort (h : ¬ pair.Agrees) :
    checkPairs location .bestEffort (pair :: rest) =
      ⟨.tolerated (pair.fault location) :: (checkPairs location .bestEffort rest).events,
        (checkPairs location .bestEffort rest).outcome⟩ := by
  rw [checkPairs, SizePair.check_of_not_agrees h]
  exact Traced.bind_of_ok (a := false) rfl _

/-- A strict run tells nothing, and fails for the first pair that does not agree. -/
theorem checkPairs_strict (hsize : ∀ pair ∈ pairs, pair.size < 2 ^ 64) :
    checkPairs location .strict pairs =
      match (disagreeing pairs).head? with
      | none => pure ()
      | some pair => .fail (pair.fault location) := by
  induction pairs with
  | nil => rfl
  | cons first rest ih =>
    obtain ⟨hfirst, hrest⟩ := List.forall_mem_cons.1 hsize
    -- Only a pair that agrees hands on to the rest, and it is not on the list.
    by_cases hagrees : first.Agrees
    · rw [checkPairs_cons_of_agrees hagrees hfirst, disagreeing_cons_of_agrees hagrees, ih hrest]
    · rw [checkPairs_cons_strict hagrees, disagreeing_cons_of_not_agrees hagrees]
      rfl

/-- A lenient run passes, with a warning for each pair that does not agree. -/
theorem checkPairs_bestEffort (hsize : ∀ pair ∈ pairs, pair.size < 2 ^ 64) :
    checkPairs location .bestEffort pairs =
      ⟨(disagreeing pairs).map fun pair => .tolerated (pair.fault location), .ok ()⟩ := by
  induction pairs with
  | nil => rfl
  | cons first rest ih =>
    obtain ⟨hfirst, hrest⟩ := List.forall_mem_cons.1 hsize
    by_cases hagrees : first.Agrees
    · rw [checkPairs_cons_of_agrees hagrees hfirst, disagreeing_cons_of_agrees hagrees, ih hrest]
    · rw [checkPairs_cons_bestEffort hagrees, disagreeing_cons_of_not_agrees hagrees, ih hrest]
      rfl

/-! ## Superblocks -/

variable {sb : Superblock}

/-- The sizes are ones that their fields can hold. -/
structure Stored (sb : Superblock) : Prop where
  blockSize_lt : sb.blockSize < 2 ^ 32
  sectorSize_lt : sb.sectorSize < 2 ^ 16
  inodeSize_lt : sb.inodeSize < 2 ^ 16
  inodesPerBlock_lt : sb.inodesPerBlock < 2 ^ 16

theorem stored_of_ofBytes {data : Bytes} (h : ofBytes data = .ok sb) : sb.Stored := by
  obtain ⟨_, _, rfl⟩ := ofBytes_eq_ok_iff.1 h
  exact ⟨data.beAt_lt 0x04 4, data.beAt_lt 0x66 2, data.beAt_lt 0x68 2, data.beAt_lt 0x6A 2⟩

/-- No field is wider than a word. -/
theorem Stored.size_lt (h : sb.Stored) : ∀ pair ∈ sb.sizePairs, pair.size < 2 ^ 64 := by
  have hword : 2 ^ 32 ≤ 2 ^ 64 := by decide
  have hhalf : 2 ^ 16 ≤ 2 ^ 64 := by decide
  simp only [sizePairs, blockPair, sectorPair, List.forall_mem_cons]
  exact ⟨Nat.lt_of_lt_of_le h.blockSize_lt hword, Nat.lt_of_lt_of_le h.sectorSize_lt hhalf,
    Nat.lt_of_lt_of_le h.inodeSize_lt hhalf, Nat.lt_of_lt_of_le h.inodesPerBlock_lt hhalf,
    List.forall_mem_nil _⟩

theorem Valid.agrees (h : sb.Valid) : ∀ pair ∈ sb.sizePairs, pair.Agrees := by
  simp only [sizePairs, List.forall_mem_cons]
  exact ⟨h.blockSize_eq, h.sectorSize_eq, h.inodeSize_eq, h.inodesPerBlock_eq,
    List.forall_mem_nil _⟩

theorem validate_of_magic (h : sb.magic = Magic.superblock) :
    sb.validate location mode = checkPairs location mode sb.sizePairs :=
  if_pos h

theorem validate_of_foreign (h : sb.magic ≠ Magic.superblock) :
    sb.validate location mode =
      .fail (.badMagic "superblock" location Magic.superblock sb.magic) :=
  if_neg h

/-- How validation judges the superblock `sb`. -/
structure Policy (sb : Superblock) (location : String) : Prop where
  /-- These sizes are compared, in this order. -/
  pairs_eq : sb.sizePairs =
    [ ⟨"blocksize", sb.blockSize, sb.blockLog⟩, ⟨"sectsize", sb.sectorSize, sb.sectorLog⟩,
      ⟨"inodesize", sb.inodeSize, sb.inodeLog⟩,
      ⟨"inopblock", sb.inodesPerBlock, sb.inodesPerBlockLog⟩ ]
  /-- A wrong magic is refused in both modes, and nothing else is looked at. -/
  foreign : sb.magic ≠ Magic.superblock → ∀ mode, sb.validate location mode =
    ⟨[], .error (.badMagic "superblock" location Magic.superblock sb.magic)⟩
  /-- A strict run passes the valid ones, whose sizes are the powers that their logarithms name. -/
  strict_ok_iff : (sb.validate location .strict).outcome = .ok () ↔ sb.Valid
  /-- Their logarithms are smaller than a word has bits. -/
  log2_lt : sb.Valid → ∀ pair ∈ sb.sizePairs, pair.log2 < 64
  /-- Under the right magic it fails for the first pair that does not agree. -/
  strict_fault_iff : sb.magic = Magic.superblock → ∀ fault,
    (sb.validate location .strict).outcome = .error fault ↔
      ∃ pair, (disagreeing sb.sizePairs).head? = some pair ∧
        fault = .inconsistentGeometry location pair.field pair.size pair.log2
  /-- It never warns. -/
  strict_events : (sb.validate location .strict).events = []
  /-- A lenient run asks for the magic alone. -/
  lenient_ok_iff :
    (sb.validate location .bestEffort).outcome = .ok () ↔ sb.magic = Magic.superblock
  /-- Under the right magic it has one warning for each pair that does not agree. -/
  lenient_events : sb.magic = Magic.superblock → (sb.validate location .bestEffort).events =
    (disagreeing sb.sizePairs).map fun pair =>
      .tolerated (.inconsistentGeometry location pair.field pair.size pair.log2)
  /-- The size of a group and its logarithm are not looked at. -/
  blind : ∀ agBlocks agBlockLog mode,
    { sb with agBlocks := agBlocks, agBlockLog := agBlockLog }.validate location mode =
      sb.validate location mode

theorem Stored.policy (h : sb.Stored) (location : String) : Policy sb location := by
  have hstrict : sb.magic = Magic.superblock → sb.validate location .strict = _ := fun hmagic =>
    (validate_of_magic hmagic).trans (checkPairs_strict h.size_lt)
  have hlenient : sb.magic = Magic.superblock → sb.validate location .bestEffort = _ :=
    fun hmagic => (validate_of_magic hmagic).trans (checkPairs_bestEffort h.size_lt)
  refine
    { pairs_eq := rfl
      foreign := fun hforeign mode => validate_of_foreign hforeign
      strict_ok_iff := ⟨valid_of_validate, fun hvalid => ?_⟩
      log2_lt := fun hvalid pair hmem => (hvalid.agrees pair hmem).log2_lt (h.size_lt pair hmem)
      strict_fault_iff := fun hmagic fault => ?_
      strict_events := ?_
      lenient_ok_iff := ⟨fun hok => ?_, fun hmagic => by rw [hlenient hmagic]⟩
      lenient_events := fun hmagic => by rw [hlenient hmagic]; rfl
      blind := fun _ _ _ => rfl }
  · rw [hstrict hvalid.magic_eq, disagreeing_eq_nil_iff.2 hvalid.agrees]
    rfl
  · rw [hstrict hmagic]
    cases (disagreeing sb.sizePairs).head? with
    | none => simp
    | some pair => simp [Traced.fail, SizePair.fault, eq_comm]
  · by_cases hmagic : sb.magic = Magic.superblock
    · rw [hstrict hmagic]
      cases (disagreeing sb.sizePairs).head? <;> rfl
    · rw [validate_of_foreign hmagic]
      rfl
  · by_contra hforeign
    rw [validate_of_foreign hforeign] at hok
    cases hok

/-- Every superblock that can be stored is judged so, and every one that is read can be stored. -/
theorem validation_policy :
    (∀ data sb, ofBytes data = .ok sb → sb.Stored) ∧
    ∀ sb location, Stored sb → Policy sb location :=
  ⟨fun _ _ => stored_of_ofBytes, fun _ location h => h.policy location⟩

/-- A superblock with sectors that are no power of two, and inodes whose logarithm is larger than a
word has bits. -/
def misjudged : Superblock :=
  { (default : Superblock) with
    magic := Magic.superblock
    blockSize := 4096, blockLog := 12
    sectorSize := 500, sectorLog := 9
    inodeSize := 0, inodeLog := 64
    inodesPerBlock := 8, inodesPerBlockLog := 3 }

/-- A strict run names the sectors, and a lenient one warns of both. -/
theorem misjudged_policy :
    misjudged.Stored ∧
      (misjudged.validate "disk" .strict).outcome =
        .error (.inconsistentGeometry "disk" "sectsize" 500 9) ∧
      (misjudged.validate "disk" .bestEffort).outcome = .ok () ∧
      (misjudged.validate "disk" .bestEffort).events =
        [ .tolerated (.inconsistentGeometry "disk" "sectsize" 500 9),
          .tolerated (.inconsistentGeometry "disk" "inodesize" 0 64) ] := by
  have hstored : misjudged.Stored := ⟨by decide, by decide, by decide, by decide⟩
  have hbad : disagreeing misjudged.sizePairs = [⟨"sectsize", 500, 9⟩, ⟨"inodesize", 0, 64⟩] := by
    decide +kernel
  have hpolicy := validation_policy.2 misjudged "disk" hstored
  refine ⟨hstored, ?_, hpolicy.lenient_ok_iff.2 rfl, ?_⟩
  · exact (hpolicy.strict_fault_iff rfl _).2 ⟨⟨"sectsize", 500, 9⟩, by rw [hbad]; rfl, rfl⟩
  · rw [hpolicy.lenient_events rfl, hbad]
    rfl

end DiskScope.Xfs.Superblock
