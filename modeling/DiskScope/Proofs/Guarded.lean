/-
  DiskScope/Proofs/Guarded.lean --- reads that have to stay inside.

  WHAT THIS FILE IS FOR.  The decoders read with total functions: a byte past the end is zero,
  a slice past the end is short.  Memory has no such bytes, so a decoder is only safe if it
  never asks for them.  A `Guarded` run has no outcome at all, not even a fault, where it
  would read outside the bytes at hand.  A guarded decoder that is `plain` of a total one
  therefore says that no read of it, on any path, goes outside.

  MAIN STATEMENTS.

      number_of_le, bytes_of_le    what lies inside is read as ever
      plain_bind_congr             step by step, each step knowing that those before it went well
-/
import DiskScope.Fault

set_option autoImplicit false

namespace DiskScope

/-- A run without an outcome where it would read outside. -/
abbrev Guarded (α : Type) := ExceptT Fault Option α

namespace Guarded

variable {α β : Type} {data : Bytes} {off len width : Nat}

/-- A run that reads nothing outside. -/
def plain (run : Except Fault α) : Guarded α := ExceptT.mk (some run)

/-- Where a run has gone outside. -/
def outside : Guarded α := ExceptT.mk none

/-- The number of `width` bytes at `off`, all of which must be there. -/
def number (data : Bytes) (off width : Nat) : Guarded Nat :=
  if off + width ≤ data.length then pure (data.beAt off width) else outside

/-- The `len` bytes at `off`, all of which must be there. -/
def bytes (data : Bytes) (off len : Nat) : Guarded Bytes :=
  if off + len ≤ data.length then pure (data.slice off len) else outside

theorem number_of_le (h : off + width ≤ data.length) :
    number data off width = pure (data.beAt off width) := if_pos h

theorem bytes_of_le (h : off + len ≤ data.length) :
    bytes data off len = pure (data.slice off len) := if_pos h

/-- After a run that reads nothing outside, what follows only has to be safe if that run went well. -/
theorem plain_bind_congr {first : Except Fault α} {next : α → Guarded β} {next' : α → Except Fault β}
    (h : ∀ a, first = .ok a → next a = plain (next' a)) :
    plain first >>= next = plain (first >>= next') := by
  cases first with
  | error fault => rfl
  | ok a => exact h a rfl

/-- Safe steps in a row, one for each member of a list. -/
theorem mapM_eq_plain {list : List α} {step : α → Guarded β} {f : α → β}
    (h : ∀ a ∈ list, step a = pure (f a)) : list.mapM step = pure (list.map f) := by
  induction list with
  | nil => rfl
  | cons a rest ih =>
    obtain ⟨hfirst, hrest⟩ := List.forall_mem_cons.1 h
    rw [List.mapM_cons, hfirst, ih hrest]
    rfl

end Guarded

end DiskScope
