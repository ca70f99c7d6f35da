/-
  DiskScope/Proofs/Bitmap/Runs.lean --- the runs of a bitmap are its bits.

  WHAT THIS FILE IS FOR.  A list of runs stands for a set of blocks.  This file says
  which lists of runs are in order, and that the runs of a bitmap are in order, stand
  for exactly its set bits, and are as long as they can be.

  ORDER.  `Ordered` only asks that no run begins before the end of the one in front of
  it, so empty and adjacent runs are in order too.  `Separated` asks for a gap between
  any two and refuses empty ones.  A separated list is the only one for its blocks.

  MAIN STATEMENTS.

      setRuns_covers     the runs of a map cover exactly its set bits
      clearRuns_covers   and its clear runs the clear bits below the end
-/
import DiskScope.Proofs.Bitmap.Members

set_option autoImplicit false

namespace DiskScope

namespace Run

/-! ## Lists of runs -/

/-- The block after the last one. -/
def stop (run : Run) : Nat := run.start + run.length

/-- The block lies in the run. -/
def Covers (run : Run) (block : Nat) : Prop := run.start ≤ block ∧ block < run.stop

/-- Runs in ascending order from `lo` on. -/
def Ordered : (lo : Nat) → List Run → Prop
  | _, [] => True
  | lo, run :: rest => lo ≤ run.start ∧ Ordered run.stop rest

/-- Runs in ascending order from `lo` on, none of them empty and no two adjacent. -/
def Separated : (lo : Nat) → List Run → Prop
  | _, [] => True
  | lo, run :: rest => lo ≤ run.start ∧ 0 < run.length ∧ Separated (run.stop + 1) rest

/-- Some run of the list covers the block. -/
def Covered (runs : List Run) (block : Nat) : Prop := ∃ run ∈ runs, run.Covers block

@[simp] theorem not_covered_nil (block : Nat) : ¬ Covered [] block := by
  rintro ⟨run, hmem, _⟩
  cases hmem

theorem covered_cons {run : Run} {rest : List Run} {block : Nat} :
    Covered (run :: rest) block ↔ run.Covers block ∨ Covered rest block := by
  simp [Covered]

theorem Ordered.mono {lo lo' : Nat} {runs : List Run} (hle : lo ≤ lo') (h : Ordered lo' runs) :
    Ordered lo runs := by
  cases runs with
  | nil => trivial
  | cons run rest => exact ⟨Nat.le_trans hle h.1, h.2⟩

theorem Separated.ordered {lo : Nat} {runs : List Run} (h : Separated lo runs) :
    Ordered lo runs := by
  induction runs generalizing lo with
  | nil => trivial
  | cons run rest ih => exact ⟨h.1, (ih h.2.2).mono (Nat.le_succ _)⟩

theorem Ordered.le_of_covered {lo block : Nat} {runs : List Run} (h : Ordered lo runs)
    (hcov : Covered runs block) : lo ≤ block := by
  induction runs generalizing lo with
  | nil => exact absurd hcov (not_covered_nil block)
  | cons run rest ih =>
    have hstart := h.1
    rcases covered_cons.1 hcov with hrun | hrest
    · exact Nat.le_trans hstart hrun.1
    · have := ih h.2 hrest
      unfold stop at this
      omega

theorem Separated.stop_le {lo total : Nat} {runs : List Run} (h : Separated lo runs)
    (hcov : ∀ block, Covered runs block → block < total) {run : Run} (hmem : run ∈ runs) :
    run.stop ≤ total := by
  induction runs generalizing lo with
  | nil => cases hmem
  | cons first rest ih =>
    obtain ⟨hstart, hpos, hrest⟩ := h
    rcases List.mem_cons.1 hmem with rfl | hmem
    · -- A run that is not empty covers the block before its end.
      have hlast := hcov (run.stop - 1) (covered_cons.2 (.inl (by
        unfold Covers stop
        omega)))
      omega
    · exact ih hrest (fun block h => hcov block (covered_cons.2 (.inr h))) hmem

theorem Separated.succ {lo : Nat} {runs : List Run} (h : Separated lo runs)
    (hclear : ¬ Covered runs lo) : Separated (lo + 1) runs := by
  cases runs with
  | nil => trivial
  | cons run rest =>
    obtain ⟨hstart, hpos, hrest⟩ := h
    have hne : run.start ≠ lo := by
      intro heq
      refine hclear (covered_cons.2 (.inl ⟨by omega, ?_⟩))
      unfold stop
      omega
    exact ⟨by omega, hpos, hrest⟩

end Run

namespace Bitmap

open Run

/-! ## The cursor -/

theorem test_of_byteOf_zero {map : Bitmap} {i j : Nat} (h : map.byteOf i = 0)
    (hj : j / 8 = i / 8) : map.test j = false := by
  have hzero : map.byteOf j = 0 := by rw [byteOf, hj]; exact h
  simp [test, hzero]

/-- Seeking a set bit passes clear bits only. -/
theorem test_of_lt_seekSet {map : Bitmap} {i j : Nat} (hle : i ≤ j) (hlt : j < map.seekSet i) :
    map.test j = false := by
  fun_induction seekSet map i with
  | case1 i hi hskip ih =>
    by_cases hj : j < i + 8
    · exact test_of_byteOf_zero hskip.2 (by omega)
    · exact ih (by omega) hlt
  | case2 i hi hskip htest => omega
  | case3 i hi hskip htest ih =>
    by_cases hj : j = i
    · rw [hj]
      exact Bool.eq_false_iff.2 htest
    · exact ih (by omega) hlt
  | case4 i hi => omega

theorem test_seekSet {map : Bitmap} {i : Nat} (h : map.seekSet i < map.bitCount) :
    map.test (map.seekSet i) = true := by
  fun_induction seekSet map i with
  | case1 i hi hskip ih => exact ih h
  | case2 i hi hskip htest => exact htest
  | case3 i hi hskip htest ih => exact ih h
  | case4 i hi => exact absurd h hi

/-- Seeking a clear bit passes set bits only. -/
theorem test_of_lt_seekClear {map : Bitmap} {i j : Nat} (hle : i ≤ j)
    (hlt : j < map.seekClear i) : map.test j = true := by
  fun_induction seekClear map i with
  | case1 i hi ih =>
    by_cases hj : j = i
    · rw [hj]
      exact hi.2
    · exact ih (by omega) hlt
  | case2 i hi => omega

theorem test_seekClear (map : Bitmap) (i : Nat) : map.test (map.seekClear i) = false := by
  fun_induction seekClear map i with
  | case1 i hi ih => exact ih
  | case2 i hi =>
    by_cases hlt : i < map.bitCount
    · exact Bool.eq_false_iff.2 fun h => hi ⟨hlt, h⟩
    · exact test_of_le (Nat.not_lt.1 hlt)

/-! ## The runs -/

/-- The run that the cursor finds first, from the position `i` on. -/
def firstRun (map : Bitmap) (i : Nat) : Run :=
  ⟨map.seekSet i, map.seekClear (map.seekSet i + 1) - map.seekSet i⟩

theorem stop_firstRun (map : Bitmap) (i : Nat) :
    (map.firstRun i).stop = map.seekClear (map.seekSet i + 1) := by
  have hend := map.le_seekClear (map.seekSet i + 1)
  simp only [stop, firstRun]
  omega

/-- The first run covers exactly the set bits before its end. -/
theorem covers_firstRun {map : Bitmap} {i : Nat} (h : map.seekSet i < map.bitCount) (block : Nat) :
    (map.firstRun i).Covers block ↔
      i ≤ block ∧ block < (map.firstRun i).stop ∧ map.test block = true := by
  have hle := map.le_seekSet i
  rw [Covers, stop_firstRun]
  simp only [firstRun]
  constructor
  · rintro ⟨hstart, hlt⟩
    refine ⟨Nat.le_trans hle hstart, hlt, ?_⟩
    by_cases heq : block = map.seekSet i
    · rw [heq]
      exact test_seekSet h
    · exact test_of_lt_seekClear (i := map.seekSet i + 1) (by omega) hlt
  · rintro ⟨hge, hlt, htest⟩
    refine ⟨Nat.le_of_not_lt fun hbefore => ?_, hlt⟩
    rw [test_of_lt_seekSet hge hbefore] at htest
    cases htest

/-- The runs from a position on are separated, and cover the set bits from there on. -/
theorem runsFrom_spec (map : Bitmap) (i : Nat) :
    Separated i (map.runsFrom i) ∧
      ∀ block, Covered (map.runsFrom i) block ↔ i ≤ block ∧ map.test block = true := by
  fun_induction runsFrom map i with
  | case1 i hfound ih =>
    obtain ⟨hsep, hcov⟩ := ih
    have hle := map.le_seekSet i
    have hend := map.le_seekClear (map.seekSet i + 1)
    -- The bit at which the first run ends is clear, so the next run does not touch it.
    have hgap : ¬ Covered (map.runsFrom (map.seekClear (map.seekSet i + 1)))
        (map.seekClear (map.seekSet i + 1)) := by
      rw [hcov, test_seekClear]
      simp
    change Separated i (map.firstRun i :: _) ∧ ∀ block, Covered (map.firstRun i :: _) block ↔ _
    rw [← stop_firstRun] at hsep hcov hgap ⊢
    refine ⟨⟨hle, by simp only [firstRun]; omega, hsep.succ hgap⟩, ?_⟩
    intro block
    rw [covered_cons, hcov, covers_firstRun hfound, stop_firstRun]
    constructor
    · rintro (⟨hge, _, htest⟩ | ⟨hge, htest⟩)
      · exact ⟨hge, htest⟩
      · exact ⟨by omega, htest⟩
    · rintro ⟨hge, htest⟩
      rcases Nat.lt_or_ge block (map.seekClear (map.seekSet i + 1)) with hlt | hlast
      · exact .inl ⟨hge, hlt, htest⟩
      · exact .inr ⟨hlast, htest⟩
  | case2 i hnone =>
    refine ⟨trivial, ?_⟩
    intro block
    constructor
    · intro h
      exact absurd h (not_covered_nil block)
    · rintro ⟨hge, htest⟩
      have hlt := lt_of_test htest
      rw [test_of_lt_seekSet hge (by omega)] at htest
      cases htest

theorem setRuns_separated (map : Bitmap) : Separated 0 map.setRuns :=
  (map.runsFrom_spec 0).1

theorem setRuns_covers (map : Bitmap) (block : Nat) :
    Covered map.setRuns block ↔ map.test block = true := by
  rw [setRuns, (map.runsFrom_spec 0).2]
  simp

theorem clearRuns_separated (map : Bitmap) : Separated 0 map.clearRuns :=
  map.invert.setRuns_separated

/-- The clear runs of a map cover exactly its clear bits. -/
theorem WellFormed.clearRuns_covers {map : Bitmap} (h : map.WellFormed) (block : Nat) :
    Covered map.clearRuns block ↔ block < map.bitCount ∧ map.test block = false := by
  rw [clearRuns, setRuns_covers, h.test_invert]
  simp

end Bitmap

end DiskScope
