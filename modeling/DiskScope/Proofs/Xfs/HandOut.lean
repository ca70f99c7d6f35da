/-
  DiskScope/Proofs/Xfs/HandOut.lean --- which runs a sink is called with.

  WHAT THIS FILE IS FOR.  A sink is someone else's code: nothing is known of its state, or of
  when it refuses.  What can be said is which calls it gets.  `Drains` says so of one
  hand-out: the sink takes all runs in order, or it takes some and refuses the next, and
  then nothing more is asked of it.

  SEEING THE CALLS.  An arbitrary sink need not remember its calls.  `recording` is the
  same sink with a memory, and it does the same otherwise.

  MAIN STATEMENTS.

      drain_recording     handing out runs drains them, and a memory changes nothing
      exportTo_drains     so does an export, whose runs are known before the first call
-/
import DiskScope.Proofs.Traced.Outcome
import DiskScope.Xfs.Volume
import Mathlib.Algebra.GroupWithZero.Nat

set_option autoImplicit false

namespace DiskScope.Xfs

namespace Sink

variable {σ : Type} {sink : Sink σ} {reader : BlockReader}

/-- The sink takes all of the runs in order, which leads it from one state to another. -/
inductive Takes (sink : Sink σ) (reader : BlockReader) : List Run → σ → σ → Prop where
  | none (state : σ) : Takes sink reader [] state state
  | more {run : Run} {rest : List Run} {before middle after : σ}
      (hrun : sink.write reader run before = (middle, .ok ()))
      (hrest : Takes sink reader rest middle after) : Takes sink reader (run :: rest) before after

/-- Handing out `runs` ends in a state and with an outcome, after a list of calls. -/
inductive Drains (sink : Sink σ) (reader : BlockReader) (runs : List Run) (state : σ) :
    σ → Except Fault Nat → List Run → Prop where
  /-- Every run was taken; the answer is how many blocks that were. -/
  | taken {final : σ} (htaken : sink.Takes reader runs state final) :
    Drains sink reader runs state final (.ok (runs.map Run.length).sum) runs
  /-- Some runs were taken, the next was refused, and no other was offered. -/
  | refused {front rest : List Run} {run : Run} {middle final : σ} {fault : Fault}
    (hruns : runs = front ++ run :: rest) (htaken : sink.Takes reader front state middle)
    (hrefused : sink.write reader run middle = (final, .error fault)) :
    Drains sink reader runs state final (.error fault) (front ++ [run])

/-- The same sink, which also keeps the runs that it was called with. -/
def recording (sink : Sink σ) : Sink (σ × List Run) :=
  ⟨fun reader run state =>
    let (after, outcome) := sink.write reader run state.1
    ((after, state.2 ++ [run]), outcome)⟩

theorem Drains.cons {run : Run} {rest calls : List Run} {before middle final : σ}
    {outcome : Except Fault Nat} (hrun : sink.write reader run before = (middle, .ok ()))
    (h : sink.Drains reader rest middle final outcome calls) :
    sink.Drains reader (run :: rest) before final (outcome.map (run.length + ·)) (run :: calls) := by
  cases h with
  | taken htaken => exact .taken (.more hrun htaken)
  | refused hruns htaken hrefused =>
    exact .refused (congrArg (run :: ·) hruns) (.more hrun htaken) hrefused

/-- Handing out runs drains them, and the sink that keeps its calls does as the one that does not. -/
theorem drain_recording (sink : Sink σ) (reader : BlockReader) (runs : List Run) (state : σ)
    (log : List Run) :
    ∃ calls,
      sink.recording.drain reader runs (state, log) =
          (((sink.drain reader runs state).1, log ++ calls), (sink.drain reader runs state).2) ∧
        sink.Drains reader runs state (sink.drain reader runs state).1
          (sink.drain reader runs state).2.outcome calls := by
  induction runs generalizing state log with
  | nil => exact ⟨[], by simp [drain], .taken (.none state)⟩
  | cons run rest ih =>
    cases hwrite : sink.write reader run state with
    | mk middle outcome =>
      have hrecord : sink.recording.write reader run (state, log) =
          ((middle, log ++ [run]), outcome) := by
        simp only [recording, hwrite]
      cases outcome with
      | error fault =>
        refine ⟨[run], ?_, ?_⟩
        · simp only [drain, hwrite, hrecord]
        · simp only [drain, hwrite]
          exact .refused (List.nil_append _).symm (.none state) hwrite
      | ok answer =>
        obtain ⟨calls, hdrain, hdrains⟩ := ih middle (log ++ [run])
        refine ⟨run :: calls, ?_, ?_⟩
        · simp only [drain, hwrite, hrecord, hdrain, List.append_assoc, List.singleton_append]
        · simp only [drain, hwrite]
          exact hdrains.cons hwrite

/-- A sink that refuses none of the runs takes them all. -/
theorem Drains.outcome_of_accepts {runs calls : List Run} {state final : σ}
    {outcome : Except Fault Nat} (h : sink.Drains reader runs state final outcome calls)
    (haccepts : ∀ run ∈ runs, ∀ state, (sink.write reader run state).2 = .ok ()) :
    outcome = .ok (runs.map Run.length).sum := by
  cases h with
  | taken htaken => rfl
  | @refused front rest run middle final fault hruns htaken hrefused =>
    have hok := haccepts run (by simp [hruns]) middle
    rw [hrefused] at hok
    cases hok

end Sink

namespace Volume

variable {σ : Type}

/-- The used runs of a volume, or why they cannot be known. -/
def plan (volume : Volume) : Except Fault (List Run) :=
  (usedRuns volume.reader volume.sb volume.groups volume.mode).outcome

/-- The calls that an export makes to a sink, in order. -/
def calls (volume : Volume) (sink : Sink σ) (state : σ) : List Run :=
  (volume.exportTo sink.recording (state, [])).1.2

theorem exportTo_of_error {volume : Volume} {fault : Fault} (h : volume.plan = .error fault)
    (sink : Sink σ) (state : σ) :
    (volume.exportTo sink state).1 = state ∧
      (volume.exportTo sink state).2.outcome = .error fault := by
  unfold plan at h
  simp only [exportTo, Sink.exportUsed, h, and_self]

theorem exportTo_of_ok {volume : Volume} {runs : List Run} (h : volume.plan = .ok runs)
    (sink : Sink σ) (state : σ) :
    (volume.exportTo sink state).1 = (sink.drain volume.reader runs state).1 ∧
      (volume.exportTo sink state).2.outcome =
        (sink.drain volume.reader runs state).2.outcome := by
  unfold plan at h
  simp only [exportTo, Sink.exportUsed, h, and_self]

theorem calls_of_error {volume : Volume} {fault : Fault} (h : volume.plan = .error fault)
    (sink : Sink σ) (state : σ) : volume.calls sink state = [] := by
  rw [calls, (exportTo_of_error h sink.recording (state, [])).1]

/-- An export with a plan drains its runs. -/
theorem exportTo_drains {volume : Volume} {runs : List Run} (h : volume.plan = .ok runs)
    (sink : Sink σ) (state : σ) :
    sink.Drains volume.reader runs state (volume.exportTo sink state).1
      (volume.exportTo sink state).2.outcome (volume.calls sink state) := by
  obtain ⟨calls, hrecord, hdrains⟩ := Sink.drain_recording sink volume.reader runs state []
  have hcalls : volume.calls sink state = calls := by
    rw [Volume.calls, (exportTo_of_ok h sink.recording (state, [])).1, hrecord, List.nil_append]
  obtain ⟨hfinal, houtcome⟩ := exportTo_of_ok h sink state
  rw [hfinal, houtcome, hcalls]
  exact hdrains

end Volume

end DiskScope.Xfs
