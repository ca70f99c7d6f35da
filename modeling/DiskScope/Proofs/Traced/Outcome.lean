/-
  DiskScope/Proofs/Traced/Outcome.lean --- taking a successful run apart.

  WHAT THIS FILE IS FOR.  A run that succeeded did so step by step.  `bind_eq_ok` peels
  one step off, so that a proof about a successful run follows the lines of its
  definition and never opens the monad.  `tolerate_eq_ok_iff` says what a check has
  shown that did not end the run.
-/
import DiskScope.Traced

set_option autoImplicit false

namespace DiskScope

namespace Traced

variable {α β : Type}

theorem outcome_bind_of_ok {first : Traced α} {a : α} (h : first.outcome = .ok a)
    (next : α → Traced β) : (first >>= next).outcome = (next a).outcome := by
  rw [bind_of_ok h]

/-- A run succeeds exactly when its first step and what follows on its answer do. -/
theorem bind_eq_ok {first : Traced α} {next : α → Traced β} {b : β} :
    (first >>= next).outcome = .ok b ↔
      ∃ a, first.outcome = .ok a ∧ (next a).outcome = .ok b := by
  cases h : first.outcome with
  | error fault =>
    rw [bind_of_error h]
    simp
  | ok a =>
    rw [bind_of_ok h]
    simp

theorem outcome_bind_pure (run : Traced α) (f : α → β) :
    (run >>= fun a => pure (f a)).outcome = run.outcome.map f := by
  cases h : run.outcome with
  | error fault =>
    rw [bind_of_error h]
    rfl
  | ok a =>
    rw [bind_of_ok h]
    rfl

theorem events_bind_pure (run : Traced α) (f : α → β) :
    (run >>= fun a => pure (f a)).events = run.events := by
  cases h : run.outcome with
  | error fault => rw [bind_of_error h]
  | ok a =>
    rw [bind_of_ok h]
    exact List.append_nil _

/-- A step that is made only under a condition. -/
theorem ok_of_when {condition : Prop} [Decidable condition] {check : Traced α} {next : Traced β}
    {b : β} (h : (if condition then check >>= fun _ => next else next).outcome = .ok b) :
    (condition → ∃ a, check.outcome = .ok a) ∧ next.outcome = .ok b := by
  split at h
  · obtain ⟨a, hcheck, hnext⟩ := bind_eq_ok.1 h
    exact ⟨fun _ => ⟨a, hcheck⟩, hnext⟩
  · rename_i hfalse
    exact ⟨fun htrue => absurd htrue hfalse, h⟩

/-! ## Checks -/

theorem tolerate_of_ok {mode : Mode} {check : Traced Unit} (h : check.outcome = .ok ()) :
    mode.tolerate check = ⟨check.events, .ok true⟩ := by
  rw [Mode.tolerate, h]

theorem tolerate_of_error {mode : Mode} {check : Traced Unit} {fault : Fault}
    (h : check.outcome = .error fault) :
    mode.tolerate check = ⟨check.events ++ (mode.letPass fault).events,
      (mode.letPass fault).outcome.map fun _ => false⟩ := by
  rw [Mode.tolerate, h]

end Traced

namespace Mode

theorem letPass_eq_ok_iff {mode : Mode} {fault : Fault} :
    (mode.letPass fault).outcome = .ok () ↔ mode = .bestEffort ∧ fault.isIo = false := by
  cases mode with
  | strict => simp [letPass, Traced.fail]
  | bestEffort => cases h : fault.isIo <;> simp [letPass, h, Traced.fail, Traced.record]

/-- A check that did not end the run has passed, or its fault was one that the mode lets pass. -/
theorem tolerate_eq_ok_iff {mode : Mode} {check : Traced Unit} {passed : Bool} :
    (mode.tolerate check).outcome = .ok passed ↔
      check.outcome = .ok () ∧ passed = true ∨
        ∃ fault, check.outcome = .error fault ∧ (mode = .bestEffort ∧ fault.isIo = false) ∧
          passed = false := by
  cases hcheck : check.outcome with
  | ok answer =>
    rw [Traced.tolerate_of_ok hcheck]
    simp [@eq_comm _ true]
  | error fault =>
    rw [Traced.tolerate_of_error hcheck]
    cases hpass : (mode.letPass fault).outcome with
    | ok answer => simp [letPass_eq_ok_iff.1 hpass, Except.map, @eq_comm _ false]
    | error last =>
      have hrefused : ¬ (mode = .bestEffort ∧ fault.isIo = false) := fun hallowed => by
        rw [letPass_eq_ok_iff.2 hallowed] at hpass
        cases hpass
      simp [hrefused, Except.map]

/-- In a strict run a check has passed. -/
theorem ok_of_tolerate_strict {check : Traced Unit} {passed : Bool}
    (h : (strict.tolerate check).outcome = .ok passed) : check.outcome = .ok () := by
  rcases tolerate_eq_ok_iff.1 h with ⟨hcheck, _⟩ | ⟨_, _, ⟨hmode, _⟩, _⟩
  · exact hcheck
  · cases hmode

end Mode

/-- A step of an untraced computation succeeds exactly when both halves do. -/
theorem Except.bind_eq_ok {α β : Type} {first : Except Fault α} {next : α → Except Fault β}
    {b : β} : (first >>= next) = .ok b ↔ ∃ a, first = .ok a ∧ next a = .ok b := by
  cases first with
  | error fault => simp [bind, Except.bind]
  | ok a => simp [bind, Except.bind]

/-- Something known of the answer tells that there is one. -/
theorem Except.exists_of_toOption_map {α β : Type} {run : Except Fault α} {f : α → β} {b : β}
    (h : run.toOption.map f = some b) : ∃ a, run = .ok a ∧ f a = b := by
  cases run with
  | error fault => cases h
  | ok a => exact ⟨a, rfl, Option.some.inj h⟩

end DiskScope
