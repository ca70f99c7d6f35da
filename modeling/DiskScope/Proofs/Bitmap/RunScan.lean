/-
  DiskScope/Proofs/Bitmap/RunScan.lean --- finding runs quickly finds the same runs.

  WHAT THIS FILE IS FOR.  `Runs` says that the runs of a bitmap are separated and cover its
  bits.  Here it is shown that this leaves no choice: no other separated list covers the
  same blocks, and its runs are exactly the stretches that cannot be made longer.

  THE REFERENCE.  `bitScan` looks at one bit after the other and carries nothing but the
  block at which the run in hand began.  It steps over no byte, so it says what the
  cursor with its whole-byte steps has to find.

  THE CURSOR.  `nextRun` is one call of the cursor: it answers with a run, or with none, and
  is left standing where the next call begins.  `Yields` is a row of such calls.

  MAIN STATEMENTS.

      eq_of_covered_iff    separated runs are known from the blocks that they cover
      runsFrom_yields      the calls of the cursor come to an end
      edited_enumerates    whatever is done to a blank map, its runs are exactly its bits
-/
import DiskScope.Proofs.Bitmap.FiniteSet
import DiskScope.Proofs.Bitmap.Runs

set_option autoImplicit false

namespace DiskScope

namespace Run

/-! ## Separated runs -/

theorem Separated.mono {lo lo' : Nat} {runs : List Run} (hle : lo ≤ lo') (h : Separated lo' runs) :
    Separated lo runs := by
  cases runs with
  | nil => trivial
  | cons run rest => exact ⟨Nat.le_trans hle h.1, h.2⟩

theorem covers_start {run : Run} (h : 0 < run.length) : run.Covers run.start := by
  unfold Covers stop
  omega

theorem Separated.not_covered_stop {lo : Nat} {run : Run} {rest : List Run}
    (h : Separated lo (run :: rest)) : ¬ Covered (run :: rest) run.stop := by
  rw [covered_cons]
  rintro (hrun | hrest)
  · exact Nat.lt_irrefl _ hrun.2
  · exact Nat.not_succ_le_self _ (h.2.2.ordered.le_of_covered hrest)

theorem Separated.covered_tail_iff {lo block : Nat} {run : Run} {rest : List Run}
    (h : Separated lo (run :: rest)) :
    Covered rest block ↔ run.stop < block ∧ Covered (run :: rest) block := by
  constructor
  · intro hrest
    exact ⟨h.2.2.ordered.le_of_covered hrest, covered_cons.2 (.inr hrest)⟩
  · rintro ⟨hlt, hcov⟩
    refine (covered_cons.1 hcov).resolve_left fun hrun => ?_
    exact Nat.lt_asymm hlt hrun.2

/-- Of two lists with the same blocks, neither begins before the other. -/
theorem Separated.start_le {lo lo' : Nat} {run run' : Run} {rest rest' : List Run}
    (h : Separated lo (run :: rest)) (h' : Separated lo' (run' :: rest'))
    (hsame : ∀ block, Covered (run :: rest) block ↔ Covered (run' :: rest') block) :
    run'.start ≤ run.start := by
  have hstart := (hsame run.start).1 (covered_cons.2 (.inl (covers_start h.2.1)))
  have hbegins : Ordered run'.start (run' :: rest') := ⟨Nat.le_refl _, h'.ordered.2⟩
  exact hbegins.le_of_covered hstart

/-- Of two lists with the same blocks and the same beginning, neither leaves its first run earlier
than the other. -/
theorem Separated.stop_le_stop {lo : Nat} {run run' : Run} {rest rest' : List Run}
    (h : Separated lo (run :: rest))
    (hsame : ∀ block, Covered (run :: rest) block ↔ Covered (run' :: rest') block)
    (hstart : run.start = run'.start) : run'.stop ≤ run.stop := by
  refine Nat.le_of_not_lt fun hlt => h.not_covered_stop ?_
  have hinside : run'.Covers run.stop := ⟨by rw [← hstart]; exact Nat.le_add_right _ _, hlt⟩
  exact (hsame run.stop).2 (covered_cons.2 (.inl hinside))

theorem Separated.eq_of_covered_iff {lo lo' : Nat} {runs runs' : List Run}
    (h : Separated lo runs) (h' : Separated lo' runs')
    (hsame : ∀ block, Covered runs block ↔ Covered runs' block) : runs = runs' := by
  induction runs generalizing lo lo' runs' with
  | nil =>
    cases runs' with
    | nil => rfl
    | cons run' rest' =>
      have hfirst := (hsame run'.start).2 (covered_cons.2 (.inl (covers_start h'.2.1)))
      exact absurd hfirst (not_covered_nil _)
  | cons run rest ih =>
    cases runs' with
    | nil =>
      have hfirst := (hsame run.start).1 (covered_cons.2 (.inl (covers_start h.2.1)))
      exact absurd hfirst (not_covered_nil _)
    | cons run' rest' =>
      have hback := fun block => (hsame block).symm
      have hstart : run.start = run'.start :=
        Nat.le_antisymm (h'.start_le h hback) (h.start_le h' hsame)
      have hstop : run.stop = run'.stop :=
        Nat.le_antisymm (h'.stop_le_stop hback hstart.symm) (h.stop_le_stop hsame hstart)
      have hrest : rest = rest' := by
        refine ih h.2.2 h'.2.2 fun block => ?_
        rw [h.covered_tail_iff, h'.covered_tail_iff, hsame, hstop]
      have hrun : run = run' := by
        cases run
        cases run'
        simp only [stop] at hstart hstop
        simp only [mk.injEq]
        omega
      rw [hrun, hrest]

/-! ## Maximal runs -/

/-- A stretch of a set that cannot be made longer at either end. -/
structure MaximalIn (run : Run) (bits : Finset Nat) : Prop where
  pos : 0 < run.length
  subset : ∀ block, run.Covers block → block ∈ bits
  /-- Nothing in front of it belongs to it. -/
  front : ∀ block, block + 1 = run.start → block ∉ bits
  /-- Nor does the block behind it. -/
  back : run.stop ∉ bits

/-- A stretch of a set that meets a maximal run does not begin before it. -/
theorem MaximalIn.start_le {run other : Run} {bits : Finset Nat} (h : run.MaximalIn bits)
    (hother : ∀ block, other.Covers block → block ∈ bits) {block : Nat} (hrun : run.Covers block)
    (hmeets : other.Covers block) : run.start ≤ other.start := by
  refine Nat.le_of_not_lt fun hlt => ?_
  -- Else it would hold the block in front of the run.
  have hlast : run.start - 1 + 1 = run.start := by omega
  have hstart := hrun.1
  have hstop := hmeets.2
  exact h.front (run.start - 1) hlast (hother _ ⟨by omega, by omega⟩)

theorem MaximalIn.le_stop {run other : Run} {bits : Finset Nat} (h : run.MaximalIn bits)
    (hother : ∀ block, other.Covers block → block ∈ bits) {block : Nat} (hrun : run.Covers block)
    (hmeets : other.Covers block) : other.stop ≤ run.stop := by
  refine Nat.le_of_not_lt fun hlt => ?_
  exact h.back (hother _ ⟨Nat.le_trans hmeets.1 (Nat.le_of_lt hrun.2), hlt⟩)

/-- Two maximal runs with a block in common are the same. -/
theorem MaximalIn.eq_of_common {run other : Run} {bits : Finset Nat} (h : run.MaximalIn bits)
    (hother : other.MaximalIn bits) {block : Nat} (hrun : run.Covers block)
    (hmeets : other.Covers block) : run = other := by
  have hstart : run.start = other.start :=
    Nat.le_antisymm (h.start_le hother.subset hrun hmeets)
      (hother.start_le h.subset hmeets hrun)
  have hstop : run.stop = other.stop :=
    Nat.le_antisymm (hother.le_stop h.subset hmeets hrun) (h.le_stop hother.subset hrun hmeets)
  cases run
  cases other
  simp only [stop] at hstart hstop
  simp only [mk.injEq]
  omega

theorem Separated.le_start {lo : Nat} {runs : List Run} (h : Separated lo runs) {run : Run}
    (hmem : run ∈ runs) : lo ≤ run.start ∧ 0 < run.length := by
  induction runs generalizing lo with
  | nil => cases hmem
  | cons first rest ih =>
    rcases List.mem_cons.1 hmem with rfl | hbehind
    · exact ⟨h.1, h.2.1⟩
    · obtain ⟨hstart, hpos⟩ := ih h.2.2 hbehind
      have hfirst := h.1
      unfold stop at hstart
      omega

/-- Separated runs cover neither the block in front of one of them nor the block behind it. -/
theorem Separated.apart {lo : Nat} {runs : List Run} (h : Separated lo runs) {run : Run}
    (hmem : run ∈ runs) {block : Nat} (hcov : Covered runs block) :
    block + 1 ≠ run.start ∧ block ≠ run.stop := by
  induction runs generalizing lo with
  | nil => cases hmem
  | cons first rest ih =>
    rcases List.mem_cons.1 hmem with rfl | hbehind
    · rcases covered_cons.1 hcov with ⟨hstart, hstop⟩ | hrest
      · omega
      · have hbehind := h.2.2.ordered.le_of_covered hrest
        unfold stop at hbehind ⊢
        omega
    · rcases covered_cons.1 hcov with ⟨_, hstop⟩ | hrest
      · have hbehind := (h.2.2.le_start hbehind).1
        unfold stop at hbehind hstop ⊢
        omega
      · exact ih h.2.2 hbehind hrest

/-- Separated runs are exactly the maximal runs of the blocks that they cover. -/
theorem Separated.mem_iff_maximalIn {lo : Nat} {runs : List Run} (h : Separated lo runs)
    {bits : Finset Nat} (hcov : ∀ block, Covered runs block ↔ block ∈ bits) {run : Run} :
    run ∈ runs ↔ run.MaximalIn bits := by
  have hmaximal : ∀ other ∈ runs, other.MaximalIn bits := fun other hmem =>
    { pos := (h.le_start hmem).2
      subset := fun block hin => (hcov block).1 ⟨other, hmem, hin⟩
      front := fun block heq hbit => (h.apart hmem ((hcov block).2 hbit)).1 heq
      back := fun hbit => (h.apart hmem ((hcov _).2 hbit)).2 rfl }
  constructor
  · exact hmaximal run
  · intro hrun
    have hfirst := covers_start hrun.pos
    obtain ⟨other, hmem, hin⟩ := (hcov run.start).2 (hrun.subset _ hfirst)
    rw [hrun.eq_of_common (hmaximal other hmem) hfirst hin]
    exact hmem

/-! ## Their lengths -/

/-- The blocks of a list of runs. -/
def blocks (runs : List Run) : Finset Nat :=
  runs.foldr (fun run rest => Finset.Ico run.start run.stop ∪ rest) ∅

theorem mem_blocks {runs : List Run} {block : Nat} : block ∈ blocks runs ↔ Covered runs block := by
  induction runs with
  | nil => simp [blocks]
  | cons run rest ih =>
    rw [blocks, List.foldr_cons, Finset.mem_union, Finset.mem_Ico, covered_cons, ← ih]
    rfl

theorem Ordered.card_blocks {lo : Nat} {runs : List Run} (h : Ordered lo runs) :
    (blocks runs).card = (runs.map Run.length).sum := by
  induction runs generalizing lo with
  | nil => rfl
  | cons run rest ih =>
    have hapart : Disjoint (Finset.Ico run.start run.stop) (blocks rest) := by
      rw [Finset.disjoint_left]
      intro block hrun hrest
      exact Nat.not_le_of_lt (Finset.mem_Ico.1 hrun).2 (h.2.le_of_covered (mem_blocks.1 hrest))
    rw [blocks, List.foldr_cons, ← blocks, Finset.card_union_of_disjoint hapart, ih h.2,
      Nat.card_Ico, stop, Nat.add_sub_cancel_left, List.map_cons, List.sum_cons]

end Run

namespace Bitmap

open Run

/-! ## One bit after the other -/

/-- The runs among the `left` bits from `i` on, read one at a time; `begun` is the beginning of the
run that the bit before `i` belongs to. -/
def bitScan (test : Nat → Bool) : (left i : Nat) → (begun : Option Nat) → List Run
  | 0, _, none => []
  | 0, i, some start => [⟨start, i - start⟩]
  | left + 1, i, none =>
    if test i then bitScan test left (i + 1) (some i) else bitScan test left (i + 1) none
  | left + 1, i, some start =>
    if test i then bitScan test left (i + 1) (some start)
    else ⟨start, i - start⟩ :: bitScan test left (i + 1) none

theorem covers_closed {start i block : Nat} (h : start < i) :
    Covers ⟨start, i - start⟩ block ↔ start ≤ block ∧ block < i := by
  have hstop : start + (i - start) = i := by omega
  rw [Covers, stop, hstop]

/-- The runs of a scan are separated, and cover the run begun before and the set bits of the rest. -/
theorem bitScan_spec (test : Nat → Bool) (left i : Nat) (begun : Option Nat)
    (hbegun : ∀ start, begun = some start → start < i) :
    Separated (begun.getD i) (bitScan test left i begun) ∧
      ∀ block, Covered (bitScan test left i begun) block ↔
        begun.getD i ≤ block ∧ block < i + left ∧ (i ≤ block → test block = true) := by
  fun_induction bitScan test left i begun with
  | case1 i =>
    refine ⟨trivial, fun block => ?_⟩
    simp only [not_covered_nil, Option.getD_none, false_iff]
    omega
  | case2 i start =>
    have hlt := hbegun start rfl
    refine ⟨⟨Nat.le_refl _, Nat.sub_pos_of_lt hlt, trivial⟩, fun block => ?_⟩
    rw [covered_cons, covers_closed hlt, Option.getD_some]
    simp only [not_covered_nil, or_false]
    constructor
    · rintro ⟨hge, hend⟩
      exact ⟨hge, hend, fun h => absurd hend (Nat.not_lt.2 h)⟩
    · rintro ⟨hge, hend, _⟩
      exact ⟨hge, hend⟩
  | case3 left i htest ih =>
    obtain ⟨hsep, hcov⟩ := ih (by rintro start ⟨⟩; exact Nat.lt_succ_self i)
    refine ⟨hsep, fun block => ?_⟩
    rw [hcov, Option.getD_some, Option.getD_none]
    grind
  | case4 left i htest ih =>
    obtain ⟨hsep, hcov⟩ := ih (by simp)
    refine ⟨hsep.mono (Nat.le_succ i), fun block => ?_⟩
    rw [hcov, Option.getD_none, Option.getD_none]
    grind
  | case5 left i start htest ih =>
    obtain ⟨hsep, hcov⟩ := ih (by rintro _ ⟨⟩; exact Nat.lt_succ_of_lt (hbegun start rfl))
    refine ⟨hsep, fun block => ?_⟩
    rw [hcov, Option.getD_some]
    grind
  | case6 left i start htest ih =>
    have hlt := hbegun start rfl
    obtain ⟨hsep, hcov⟩ := ih (by simp)
    have hstop : start + (i - start) + 1 = i + 1 := by omega
    refine ⟨⟨Nat.le_refl _, Nat.sub_pos_of_lt hlt, ?_⟩, fun block => ?_⟩
    · rw [stop, hstop]
      exact hsep
    · rw [covered_cons, covers_closed hlt, hcov, Option.getD_some, Option.getD_none]
      grind

/-- Reading one bit after the other finds the same runs as the cursor does. -/
theorem setRuns_eq_bitScan (map : Bitmap) :
    map.setRuns = bitScan map.test map.bitCount 0 none := by
  obtain ⟨hsep, hcov⟩ := bitScan_spec map.test map.bitCount 0 none (by simp)
  refine map.setRuns_separated.eq_of_covered_iff hsep fun block => ?_
  rw [setRuns_covers, hcov, Option.getD_none, Nat.zero_add]
  constructor
  · intro htest
    exact ⟨Nat.zero_le _, lt_of_test htest, fun _ => htest⟩
  · rintro ⟨_, _, htest⟩
    exact htest (Nat.zero_le _)

theorem WellFormed.clearRuns_eq_bitScan {map : Bitmap} (h : map.WellFormed) :
    map.clearRuns = bitScan (fun i => !map.test i) map.bitCount 0 none := by
  obtain ⟨hsep, hcov⟩ := bitScan_spec (fun i => !map.test i) map.bitCount 0 none (by simp)
  refine map.clearRuns_separated.eq_of_covered_iff hsep fun block => ?_
  rw [h.clearRuns_covers, hcov, Option.getD_none, Nat.zero_add]
  simp

/-! ## The calls of the cursor -/

/-- One call of the cursor at `i`: the next run, or none at the end, and where the cursor then
stands. -/
def nextRun (map : Bitmap) (i : Nat) : Option Run × Nat :=
  if map.seekSet i < map.bitCount then (some (map.firstRun i), (map.firstRun i).stop)
  else (none, map.seekSet i)

/-- Calls of the cursor from `i` on give these runs in turn, and the call after them gives none. -/
def Yields (map : Bitmap) : (i : Nat) → List Run → Prop
  | i, [] => (map.nextRun i).1 = none
  | i, run :: rest => (map.nextRun i).1 = some run ∧ Yields map (map.nextRun i).2 rest

/-- The calls of the cursor come to an end, and give the runs of the map. -/
theorem runsFrom_yields (map : Bitmap) (i : Nat) : map.Yields i (map.runsFrom i) := by
  fun_induction runsFrom map i with
  | case1 i hfound ih =>
    have hcall : map.nextRun i = (some (map.firstRun i), (map.firstRun i).stop) := if_pos hfound
    refine ⟨congrArg Prod.fst hcall, ?_⟩
    rw [hcall, stop_firstRun]
    exact ih
  | case2 i hnone => exact congrArg Prod.fst (if_neg hnone)

/-! ## Runs of a finite set -/

/-- The runs list a set of blocks: in order, apart, each as long as can be, and no block left out. -/
structure Enumerates (runs : List Run) (bits : Finset Nat) : Prop where
  separated : Separated 0 runs
  covered_iff : ∀ block, Covered runs block ↔ block ∈ bits
  mem_iff : ∀ run, run ∈ runs ↔ run.MaximalIn bits
  /-- Their lengths add up to the number of blocks. -/
  sum_length : (runs.map Run.length).sum = bits.card

theorem enumerates_of_separated {runs : List Run} {bits : Finset Nat} (h : Separated 0 runs)
    (hcov : ∀ block, Covered runs block ↔ block ∈ bits) : Enumerates runs bits where
  separated := h
  covered_iff := hcov
  mem_iff := fun _ => h.mem_iff_maximalIn hcov
  sum_length := by
    have hblocks : blocks runs = bits := by
      ext block
      rw [mem_blocks, hcov]
    rw [← h.ordered.card_blocks, hblocks]

/-- The runs of a map enumerate its members. -/
theorem setRuns_enumerates (map : Bitmap) : Enumerates map.setRuns map.members :=
  enumerates_of_separated map.setRuns_separated fun block => by
    rw [setRuns_covers, mem_members]

theorem WellFormed.clearRuns_enumerates {map : Bitmap} (h : map.WellFormed) :
    Enumerates map.clearRuns (Finset.range map.bitCount \ map.members) :=
  h.members_invert ▸ map.invert.setRuns_enumerates

/-- The set runs and the clear runs of a map list the set `bits` and what it leaves of the numbers
below `bitCount`, as one reading of the bits after the other would. -/
structure ListsRuns (map : Bitmap) (bitCount : Nat) (bits : Finset Nat) : Prop where
  /-- The cursor comes to an end with these runs. -/
  set_yields : map.Yields 0 map.setRuns
  set_enumerates : Enumerates map.setRuns bits
  set_scanned : map.setRuns = bitScan map.test bitCount 0 none
  clear_yields : map.invert.Yields 0 map.clearRuns
  clear_enumerates : Enumerates map.clearRuns (Finset.range bitCount \ bits)
  clear_scanned : map.clearRuns = bitScan (fun i => !map.test i) bitCount 0 none
  /-- The clear runs are as long together as there are bits that counting does not find. -/
  clear_sum : (map.clearRuns.map Run.length).sum = bitCount - map.count

theorem WellFormed.listsRuns {map : Bitmap} (h : map.WellFormed) :
    map.ListsRuns map.bitCount map.members where
  set_yields := map.runsFrom_yields 0
  set_enumerates := map.setRuns_enumerates
  set_scanned := map.setRuns_eq_bitScan
  clear_yields := map.invert.runsFrom_yields 0
  clear_enumerates := h.clearRuns_enumerates
  clear_scanned := h.clearRuns_eq_bitScan
  clear_sum := by
    have hbelow : map.members ⊆ Finset.range map.bitCount := fun i hi =>
      Finset.mem_range.2 (lt_of_test (mem_members.1 hi))
    rw [h.clearRuns_enumerates.sum_length, Finset.card_sdiff_of_subset hbelow, Finset.card_range,
      h.count_eq_card]

/-- Whatever is done to a blank map, its runs and its clear runs are found, each of them once and
whole. -/
theorem edited_enumerates (bitCount : Nat) (edits : List Edit) :
    (edited bitCount edits).ListsRuns bitCount (reference bitCount edits) := by
  obtain ⟨hwf, hcount, hmembers⟩ := (wellFormed_blank bitCount).foldl_apply edits
  have hlists := hwf.listsRuns
  rw [hcount, hmembers, members_blank] at hlists
  exact hlists

/-- A run that ends in mid-byte, a clear byte that is stepped over, and a run in a partial byte. -/
example : (edited 20 [.setRange 5 2, .setRange 17 9]).setRuns = [⟨5, 2⟩, ⟨17, 3⟩] := by cbv

end Bitmap

end DiskScope
