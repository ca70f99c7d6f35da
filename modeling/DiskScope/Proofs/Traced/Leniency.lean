/-
  DiskScope/Proofs/Traced/Leniency.lean --- a lenient run next to its strict one.

  WHAT THIS FILE IS FOR.  The two modes are two runs of one computation.  They go the
  same way until the first fault that the lenient run lets pass; there the strict run
  ends with that fault.  `Mirrors` says so of a pair of runs, and is shown here for the
  steps that computations are made of and for their sequence.  A computation is then
  treated line by line.

  WHAT A LOG SHOWS.  A fault that was let pass is logged as a warning with a fixed
  ending.  `continuedTexts` reads those warnings off a log by that ending alone.  That
  no other warning ends so is part of `Mirrors`, which makes the log a faithful account.

  MAIN STATEMENTS.

      Mirrors.bind        two pairs of runs in sequence
      Mirrors.tolerate    a check whose failure may be let pass, itself with two runs
      Mirrors.foretells   what the log of the lenient run tells of the strict one
-/
import DiskScope.Proofs.Traced.Outcome
import Mathlib.Data.List.Basic

set_option autoImplicit false

namespace DiskScope

/-! ## Logs -/

/-- What every warning of a fault that was let pass ends in. -/
def continuing : String := " (continuing in best-effort mode)"

/-- The text in front of the ending, if the event is a warning with that ending. -/
def Event.continuedText? (event : Event) : Option String :=
  if event.level = .warn ∧ continuing.toList <:+ event.text.toList then
    some (String.ofList
      (event.text.toList.take (event.text.toList.length - continuing.toList.length)))
  else none

/-- The texts of the warnings of a run with that ending, in order and without it. -/
def Traced.continuedTexts {α : Type} (run : Traced α) : List String :=
  run.events.filterMap Event.continuedText?

/-- The event is not misleading: a fault that was let pass is no failed access, and no other warning
ends like one of such a fault. -/
def Event.Plain : Event → Prop
  | .tolerated fault => fault.isIo = false
  | .note .warn text => text.toList.getLast? ≠ some ')'
  | .note _ _ => True

theorem continuedText?_tolerated (fault : Fault) :
    (Event.tolerated fault).continuedText? = some fault.message := by
  have htext : (Event.tolerated fault).text.toList = fault.message.toList ++ continuing.toList :=
    String.toList_append
  rw [Event.continuedText?, htext, if_pos ⟨rfl, List.suffix_append _ _⟩, List.length_append,
    Nat.add_sub_cancel, List.take_left, String.ofList_toList]

theorem continuedText?_note {level : Level} {text : String}
    (h : (Event.note level text).Plain) : (Event.note level text).continuedText? = none := by
  rw [Event.continuedText?, if_neg]
  rintro ⟨hlevel, front, hfront⟩
  obtain rfl : level = .warn := hlevel
  -- The ending is not empty, so a text with it ends as it does.
  refine h ?_
  rw [← show front ++ continuing.toList = text.toList from hfront, List.getLast?_append]
  rfl

/-- A log of plain events shows exactly the faults that were let pass. -/
theorem continuedText?_eq {event : Event} (h : event.Plain) :
    event.continuedText? = event.toleratedFault?.map Fault.message := by
  cases event with
  | tolerated fault => exact continuedText?_tolerated fault
  | note level text => exact continuedText?_note h

/-! ## Texts with another ending -/

theorem plain_append {front back : String} (hne : back.toList ≠ [])
    (h : back.toList.getLast? ≠ some ')') : (Event.note .warn (front ++ back)).Plain := by
  have hlast : (front ++ back).toList.getLast? = back.toList.getLast? := by
    rw [String.toList_append, List.getLast?_append, List.getLast?_eq_some_getLast hne,
      Option.some_or]
  change (front ++ back).toList.getLast? ≠ some ')'
  rw [hlast]
  exact h

theorem plain_decimal (front : String) (n : Nat) :
    (Event.note .warn (front ++ Text.decimal n)).Plain := by
  have hdigits : (Text.decimal n).toList = Nat.toDigits 10 n := String.toList_ofList
  refine plain_append (by rw [hdigits]; exact Nat.toDigits_ne_nil) ?_
  rw [hdigits]
  intro hlast
  have := Nat.isDigit_of_mem_toDigits (by decide) (by decide) (List.mem_of_getLast? hlast)
  cases this

namespace Traced

variable {α β γ : Type}

/-! ## Two runs -/

/-- The strict run goes as the lenient one up to the first fault that the latter lets pass, and ends
there with that fault.  `view` turns an answer of the lenient run into one of the strict run. -/
structure Mirrors (view : α → β) (strict : Traced β) (lenient : Traced α) : Prop where
  /-- Where nothing was let pass, the outcomes agree. -/
  outcome_eq : lenient.toleratedFaults = [] → strict.outcome = lenient.outcome.map view
  /-- The first fault that was let pass is the strict run's. -/
  fails_first : ∀ fault rest, lenient.toleratedFaults = fault :: rest →
    strict.outcome = .error fault
  /-- The log is not misleading. -/
  plain : ∀ event ∈ lenient.events, event.Plain

/-- What the log and the answer of a lenient run tell of the strict one. -/
structure Foretells (view : α → β) (lenient : Traced α) (strict : Traced β) : Prop where
  /-- The texts in the log are those of the faults that were let pass, in order. -/
  texts_eq : lenient.continuedTexts = lenient.toleratedFaults.map Fault.message
  /-- Where no fault was let pass, the strict run has the same outcome. -/
  outcome_eq : lenient.continuedTexts = [] → strict.outcome = lenient.outcome.map view
  /-- Where some were, the strict run fails, and the first text in the log is its fault's. -/
  fails_first : ∀ text rest, lenient.continuedTexts = text :: rest →
    ∃ fault, strict.outcome = .error fault ∧ fault.message = text
  /-- Where the strict run succeeds, the lenient one does, with the same answer. -/
  succeeds : ∀ answer, strict.outcome = .ok answer →
    ∃ answer', lenient.outcome = .ok answer' ∧ view answer' = answer
  /-- No failed access is let pass. -/
  not_io : ∀ fault, Event.tolerated fault ∈ lenient.events → fault.isIo = false

theorem continuedTexts_eq {run : Traced α} (h : ∀ event ∈ run.events, event.Plain) :
    run.continuedTexts = run.toleratedFaults.map Fault.message := by
  rw [continuedTexts, toleratedFaults, List.map_filterMap]
  exact List.filterMap_congr fun event hmem => continuedText?_eq (h event hmem)

/-- Runs that mirror each other can be told from the log. -/
theorem Mirrors.foretells {view : α → β} {strict : Traced β} {lenient : Traced α}
    (h : Mirrors view strict lenient) : Foretells view lenient strict := by
  have htexts := continuedTexts_eq h.plain
  refine ⟨htexts, ?_, ?_, ?_, fun fault hmem => h.plain (.tolerated fault) hmem⟩
  · intro hnone
    rw [htexts, List.map_eq_nil_iff] at hnone
    exact h.outcome_eq hnone
  · intro text rest hsome
    rw [htexts, List.map_eq_cons_iff] at hsome
    obtain ⟨fault, faults, hfaults, htext, _⟩ := hsome
    exact ⟨fault, h.fails_first fault faults hfaults, htext⟩
  · intro answer hok
    cases hfaults : lenient.toleratedFaults with
    | cons fault rest =>
      rw [h.fails_first fault rest hfaults] at hok
      cases hok
    | nil =>
      rw [h.outcome_eq hfaults] at hok
      cases hlenient : lenient.outcome with
      | error fault =>
        rw [hlenient] at hok
        cases hok
      | ok answer' =>
        rw [hlenient] at hok
        exact ⟨answer', rfl, Except.ok.inj hok⟩

/-! ## Sequence -/

theorem toleratedFaults_bind_of_ok {first : Traced α} {a : α} (h : first.outcome = .ok a)
    (next : α → Traced β) :
    (first >>= next).toleratedFaults = first.toleratedFaults ++ (next a).toleratedFaults := by
  rw [bind_of_ok h, toleratedFaults, List.filterMap_append]
  rfl

theorem toleratedFaults_bind_of_error {first : Traced α} {fault : Fault}
    (h : first.outcome = .error fault) (next : α → Traced β) :
    (first >>= next).toleratedFaults = first.toleratedFaults := by
  rw [bind_of_error h]
  rfl

theorem mem_events_bind {first : Traced α} {next : α → Traced β} {event : Event}
    (h : event ∈ (first >>= next).events) :
    event ∈ first.events ∨ ∃ a, event ∈ (next a).events := by
  cases hout : first.outcome with
  | error fault =>
    rw [bind_of_error hout] at h
    exact .inl h
  | ok a =>
    rw [bind_of_ok hout] at h
    rcases List.mem_append.1 h with hmem | hmem
    · exact .inl hmem
    · exact .inr ⟨a, hmem⟩

/-- Two pairs of runs in sequence. -/
theorem Mirrors.bind {view : β → γ} {strict lenient : Traced α} {f : α → Traced γ}
    {g : α → Traced β} (h : Mirrors id strict lenient) (hnext : ∀ a, Mirrors view (f a) (g a)) :
    Mirrors view (strict >>= f) (lenient >>= g) := by
  have hplain : ∀ event ∈ (lenient >>= g).events, event.Plain := by
    intro event hmem
    rcases mem_events_bind hmem with hmem | ⟨a, hmem⟩
    · exact h.plain event hmem
    · exact (hnext a).plain event hmem
  cases hout : lenient.outcome with
  | error fault =>
    have hfaults := toleratedFaults_bind_of_error hout g
    refine ⟨?_, ?_, hplain⟩
    · intro hnone
      rw [hfaults] at hnone
      have hstrict := h.outcome_eq hnone
      rw [hout] at hstrict
      rw [bind_of_error hstrict, bind_of_error hout]
      rfl
    · intro first rest hsome
      rw [hfaults] at hsome
      rw [bind_of_error (h.fails_first first rest hsome)]
  | ok a =>
    have hfaults := toleratedFaults_bind_of_ok hout g
    refine ⟨?_, ?_, hplain⟩
    · intro hnone
      rw [hfaults, List.append_eq_nil_iff] at hnone
      have hstrict := h.outcome_eq hnone.1
      rw [hout] at hstrict
      rw [bind_of_ok hstrict, bind_of_ok hout]
      exact (hnext a).outcome_eq hnone.2
    · intro fault rest hsome
      rw [hfaults] at hsome
      cases hfirst : lenient.toleratedFaults with
      | nil =>
        rw [hfirst, List.nil_append] at hsome
        have hstrict := h.outcome_eq hfirst
        rw [hout] at hstrict
        rw [bind_of_ok hstrict]
        exact (hnext a).fails_first fault rest hsome
      | cons first others =>
        rw [hfirst] at hsome
        obtain rfl : first = fault := (List.cons.inj hsome).1
        rw [bind_of_error (h.fails_first first others hfirst)]

/-- A pair of steps that is made only under a condition. -/
theorem Mirrors.when {view : β → γ} {condition : Prop} [Decidable condition]
    {check check' : Traced α} {strict : Traced γ} {lenient : Traced β}
    (h : Mirrors id check check') (hnext : Mirrors view strict lenient) :
    Mirrors view (if condition then check >>= fun _ => strict else strict)
      (if condition then check' >>= fun _ => lenient else lenient) := by
  split
  · exact h.bind fun _ => hnext
  · exact hnext

/-! ## Steps -/

/-- A step without events. -/
theorem Mirrors.silent {view : α → β} {strict : Except Fault β} {lenient : Except Fault α}
    (h : strict = lenient.map view) : Mirrors view ⟨[], strict⟩ ⟨[], lenient⟩ where
  outcome_eq _ := h
  fails_first fault rest hsome := by cases hsome
  plain event hmem := by cases hmem

theorem Mirrors.pure {view : α → β} (a : α) :
    Mirrors view (Pure.pure (view a)) (Pure.pure a : Traced α) :=
  Mirrors.silent rfl

theorem Mirrors.lift (outcome : Except Fault α) :
    Mirrors id (liftM outcome : Traced α) (liftM outcome) := by
  refine Mirrors.silent ?_
  cases outcome <;> rfl

theorem Mirrors.fail {view : α → β} (fault : Fault) :
    Mirrors view (Traced.fail fault) (Traced.fail fault) :=
  Mirrors.silent rfl

/-- A step that only tells something. -/
theorem Mirrors.note {level : Level} {text : String} (h : (Event.note level text).Plain) :
    Mirrors id (record (.note level text)) (record (.note level text)) where
  outcome_eq _ := rfl
  fails_first fault rest hsome := by cases hsome
  plain event hmem := by
    rw [List.mem_singleton.1 hmem]
    exact h

theorem Mirrors.info (text : String) : Mirrors id (Traced.info text) (Traced.info text) :=
  Mirrors.note trivial

theorem Mirrors.debug (text : String) : Mirrors id (Traced.debug text) (Traced.debug text) :=
  Mirrors.note trivial

/-- A fault that a lenient run lets pass. -/
theorem Mirrors.letPass (fault : Fault) :
    Mirrors id (Mode.strict.letPass fault) (Mode.bestEffort.letPass fault) := by
  unfold Mode.letPass
  dsimp only
  split
  · exact Mirrors.fail fault
  · rename_i hio
    refine ⟨?_, ?_, ?_⟩
    · intro hnone
      cases hnone
    · intro first rest hsome
      obtain rfl : fault = first := (List.cons.inj hsome).1
      rfl
    · intro event hmem
      rw [List.mem_singleton.1 hmem]
      exact Bool.eq_false_iff.2 hio

/-! ## Checks -/

/-- A strict check that fails for whatever reason fails its caller for the same reason. -/
theorem outcome_tolerate_strict {check : Traced Unit} {fault : Fault}
    (h : check.outcome = .error fault) :
    (Mode.strict.tolerate check).outcome = .error fault := by
  rw [tolerate_of_error h]
  rfl

theorem toleratedFaults_tolerate_of_error {mode : Mode} {check : Traced Unit} {fault : Fault}
    (h : check.outcome = .error fault) :
    (mode.tolerate check).toleratedFaults =
      check.toleratedFaults ++ (mode.letPass fault).toleratedFaults := by
  rw [tolerate_of_error h, toleratedFaults, List.filterMap_append]
  rfl

/-- A check that may be let pass, and that may itself let faults pass. -/
theorem Mirrors.tolerate {strict lenient : Traced Unit} (h : Mirrors id strict lenient) :
    Mirrors id (Mode.strict.tolerate strict) (Mode.bestEffort.tolerate lenient) := by
  cases hout : lenient.outcome with
  | ok answer =>
    rw [tolerate_of_ok hout]
    refine ⟨?_, ?_, h.plain⟩
    · intro hnone
      have hsame := h.outcome_eq hnone
      rw [hout] at hsame
      rw [tolerate_of_ok hsame]
      rfl
    · intro fault rest hsome
      exact outcome_tolerate_strict (h.fails_first fault rest hsome)
  | error last =>
    have hpass := Mirrors.letPass last
    have hfaults : (Mode.bestEffort.tolerate lenient).toleratedFaults = _ :=
      toleratedFaults_tolerate_of_error hout
    refine ⟨?_, ?_, ?_⟩
    · intro hnone
      rw [hfaults, List.append_eq_nil_iff] at hnone
      have hsame := h.outcome_eq hnone.1
      rw [hout] at hsame
      have hsame' := hpass.outcome_eq hnone.2
      rw [tolerate_of_error hsame, tolerate_of_error hout, hsame']
      cases (Mode.bestEffort.letPass last).outcome <;> rfl
    · intro fault rest hsome
      rw [hfaults] at hsome
      cases hfirst : lenient.toleratedFaults with
      | nil =>
        have hsame := h.outcome_eq hfirst
        rw [hout] at hsame
        rw [hfirst, List.nil_append] at hsome
        have hfail : (Mode.strict.letPass last).outcome = .error fault :=
          hpass.fails_first fault rest hsome
        rw [tolerate_of_error hsame, hfail]
        rfl
      | cons first others =>
        rw [hfirst] at hsome
        obtain rfl : first = fault := (List.cons.inj hsome).1
        exact outcome_tolerate_strict (h.fails_first first others hfirst)
    · intro event hmem
      rw [tolerate_of_error hout] at hmem
      rcases List.mem_append.1 hmem with hmem | hmem
      · exact h.plain event hmem
      · exact hpass.plain event hmem

/-- A check without events of its own. -/
theorem Mirrors.tolerateCheck (check : Except Fault Unit) :
    Mirrors id (Mode.strict.tolerateCheck check) (Mode.bestEffort.tolerateCheck check) :=
  (Mirrors.lift check).tolerate

end Traced

end DiskScope
