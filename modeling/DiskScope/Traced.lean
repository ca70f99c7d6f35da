/-
  DiskScope/Traced.lean --- computations that may fail and that leave a trace.

  WHAT THIS FILE IS FOR.  Reading a damaged disk is a conversation: what was found,
  what was odd and let pass, what was done about it.  A `Traced` computation
  carries the events in order together with its outcome, and keeps the events of
  a run that failed.

  LENIENCY.  A `Mode` decides what an anomaly does.  Strict runs fail at the first
  one.  Lenient runs record it as `Event.tolerated` and go on.  A failed device
  access fails both.  `Mode.tolerate` is the only place where a fault turns into
  an event.

  MAIN STATEMENTS.  `Traced` is a lawful monad in all but name: `pure_bind`,
  `bind_pure` and `bind_assoc` hold as equations on events and outcomes.
-/
import DiskScope.Fault

set_option autoImplicit false

namespace DiskScope

/-! ## Events -/

/-- How much attention an event asks for. -/
inductive Level where
  | warn | info | debug
  deriving DecidableEq, Repr, Inhabited

namespace Level

/-- The name of a level in a log line. -/
def label : Level → String
  | warn => "WARN"
  | info => "INFO"
  | debug => "DEBUG"

/-- Whether events of this level are shown where `threshold` is the least urgent one shown. -/
def shownAt (threshold level : Level) : Bool :=
  match threshold, level with
  | _, warn => true
  | warn, _ => false
  | _, info => true
  | info, debug => false
  | debug, debug => true

end Level

/-- One entry of the trace. -/
inductive Event where
  /-- An anomaly that a lenient run let pass. -/
  | tolerated (fault : Fault)
  /-- Anything else worth telling. -/
  | note (level : Level) (text : String)
  deriving DecidableEq, Repr, Inhabited

namespace Event

/-- The level of an event; a tolerated fault is a warning. -/
def level : Event → Level
  | tolerated _ => .warn
  | note level _ => level

/-- The wording of an event. -/
def text : Event → String
  | tolerated fault => fault.message ++ " (continuing in best-effort mode)"
  | note _ text => text

/-- The fault that was let pass, if the event is of that kind. -/
def toleratedFault? : Event → Option Fault
  | tolerated fault => some fault
  | note _ _ => none

/-- The line of an event in a log. -/
def line (event : Event) : String :=
  event.level.label ++ ": " ++ event.text

end Event

/-! ## Traced computations -/

/-- The events of a run and what came of it. -/
structure Traced (α : Type) where
  events : List Event
  outcome : Except Fault α

namespace Traced

variable {α β γ : Type}

/-- A run that answers `a` without an event. -/
protected def pure (a : α) : Traced α := ⟨[], .ok a⟩

/-- A run that fails without an event. -/
def fail (fault : Fault) : Traced α := ⟨[], .error fault⟩

/-- A run that goes on with the answer of `first`, unless that failed. -/
protected def bind (first : Traced α) (next : α → Traced β) : Traced β :=
  match first.outcome with
  | .error fault => ⟨first.events, .error fault⟩
  | .ok a =>
    let rest := next a
    ⟨first.events ++ rest.events, rest.outcome⟩

instance : Monad Traced where
  pure := Traced.pure
  bind := Traced.bind

/-- An untraced outcome as a run. -/
def ofExcept (outcome : Except Fault α) : Traced α := ⟨[], outcome⟩

instance : MonadLift (Except Fault) Traced where
  monadLift := ofExcept

/-- A run that only records `event`. -/
def record (event : Event) : Traced Unit := ⟨[event], .ok ()⟩

/-- Records a warning. -/
def warn (text : String) : Traced Unit := record (.note .warn text)

/-- Records what was found. -/
def info (text : String) : Traced Unit := record (.note .info text)

/-- Records a detail. -/
def debug (text : String) : Traced Unit := record (.note .debug text)

/-- The faults that were let pass, in order. -/
def toleratedFaults (run : Traced α) : List Fault :=
  run.events.filterMap Event.toleratedFault?

@[simp] theorem pure_def (a : α) : (pure a : Traced α) = ⟨[], .ok a⟩ := rfl

theorem bind_of_ok {first : Traced α} {a : α} (h : first.outcome = .ok a) (next : α → Traced β) :
    (first >>= next) = ⟨first.events ++ (next a).events, (next a).outcome⟩ := by
  show Traced.bind first next = _
  simp [Traced.bind, h]

theorem bind_of_error {first : Traced α} {fault : Fault} (h : first.outcome = .error fault)
    (next : α → Traced β) : (first >>= next) = ⟨first.events, .error fault⟩ := by
  show Traced.bind first next = _
  simp [Traced.bind, h]

theorem pure_bind (a : α) (next : α → Traced β) : (pure a >>= next) = next a := by
  rw [bind_of_ok rfl]; rfl

theorem bind_assoc (run : Traced α) (f : α → Traced β) (g : β → Traced γ) :
    ((run >>= f) >>= g) = (run >>= fun a => f a >>= g) := by
  show Traced.bind (Traced.bind run f) g = Traced.bind run fun a => Traced.bind (f a) g
  simp only [Traced.bind]
  cases run.outcome with
  | error fault => rfl
  | ok a =>
    cases h : (f a).outcome with
    | error fault => simp [h]
    | ok b => simp [h]

end Traced

/-! ## Leniency -/

/-- What an anomaly does to a run. -/
inductive Mode where
  /-- The first anomaly ends the run. -/
  | strict
  /-- Anomalies are recorded and let pass. -/
  | bestEffort
  deriving DecidableEq, Repr, Inhabited

namespace Mode

/-- Lets `fault` pass if the mode allows it. -/
def letPass (mode : Mode) (fault : Fault) : Traced Unit :=
  match mode with
  | strict => .fail fault
  | bestEffort => if fault.isIo then .fail fault else .record (.tolerated fault)

/-- Runs a check: whether it passed, where a failure that the mode lets pass counts as not passed. -/
def tolerate (mode : Mode) (check : Traced Unit) : Traced Bool :=
  match check.outcome with
  | .ok () => ⟨check.events, .ok true⟩
  | .error fault =>
    let passed := mode.letPass fault
    ⟨check.events ++ passed.events, passed.outcome.map fun _ => false⟩

/-- Checks without events of their own are tolerated in the same way. -/
def tolerateCheck (mode : Mode) (check : Except Fault Unit) : Traced Bool :=
  mode.tolerate (.ofExcept check)

end Mode

end DiskScope
