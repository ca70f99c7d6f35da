/-
  DiskScope/Proofs/Partition/ChainWalk.lean --- where a walk along a chain of partitions ends.

  WHAT THIS FILE IS FOR.  A chain is a sequence of sectors: the base, and after each
  sector the one that its first extended entry points to.  `chainSector` is that
  sequence, without any walk.  How a walk ends is decided by how far the sequence goes on
  sectors that can be read, carry the signature and have a link, and by what stops it.

  FOUR ENDS.  A sector without a link ends the chain well.  A sector without the
  signature ends a lenient walk well and fails a strict one.  A sector that
  cannot be read fails both, and so do sixty-four sectors with links.  Nothing else
  can happen, so a walk always ends.

  MAIN STATEMENTS.

      runs_of_cycle     a chain that comes back to one of its sectors never stops
      followChain_runs  a walk along linked sectors collects their partitions
      walkChain_ends    how every walk ends, in both modes
-/
import DiskScope.Partition.Chain
import DiskScope.Proofs.Traced.Outcome

set_option autoImplicit false

namespace DiskScope.Partition

/-! ## Sectors of a chain -/

/-- The sector lies inside the image. -/
def Readable (image : Image) (sector : Nat) : Prop := sector * 512 + 512 ≤ image.size

/-- The bytes of a sector. -/
def sectorBytes (image : Image) (sector : Nat) : Bytes := image.bytesFrom (sector * 512) 512

/-- The last two bytes of a sector. -/
def signatureAt (image : Image) (sector : Nat) : Nat := (sectorBytes image sector).leAt 510 2

/-- The sector carries the boot signature. -/
def Signed (image : Image) (sector : Nat) : Prop := signatureAt image sector = 0xAA55

/-- The four slots of a sector. -/
def slotsAt (image : Image) (sector : Nat) : List Entry :=
  [446, 462, 478, 494].map fun offset => Entry.ofBytes ((sectorBytes image sector).slice offset 16)

/-- The first extended slot of a sector. -/
def linkAt? (image : Image) (sector : Nat) : Option Entry :=
  (slotsAt image sector).find? Entry.isExtended

/-- The first slot of a sector that is neither empty nor extended, counted from the start of the
disk. -/
def logicalAt? (image : Image) (sector : Nat) : Option Entry :=
  ((slotsAt image sector).find? fun entry => !entry.isEmpty && !entry.isExtended).map fun entry =>
    { entry with start := min 0xFFFFFFFF (sector + entry.start) }

/-- The sector after `sector`; the base itself when there is no link. -/
def sectorAfter (image : Image) (base sector : Nat) : Nat :=
  min 0xFFFFFFFF (base + ((linkAt? image sector).map Entry.start).getD 0)

/-- The `i`-th sector of the chain that starts at `base`. -/
def chainSector (image : Image) (base : Nat) : Nat → Nat
  | 0 => base
  | i + 1 => sectorAfter image base (chainSector image base i)

/-- The sector can be read, carries the signature and has a link. -/
structure Linked (image : Image) (sector : Nat) : Prop where
  readable : Readable image sector
  signed : Signed image sector
  isSome : (linkAt? image sector).isSome = true

/-- What stops a chain at a sector. -/
inductive Stops (image : Image) (sector : Nat) : Prop where
  | unreadable (hreadable : ¬ Readable image sector)
  | unsigned (hreadable : Readable image sector) (hsigned : ¬ Signed image sector)
  | unlinked (hreadable : Readable image sector) (hsigned : Signed image sector)
    (hlink : linkAt? image sector = none)

theorem linked_or_stops (image : Image) (sector : Nat) :
    Linked image sector ∨ Stops image sector := by
  by_cases hreadable : Readable image sector
  · by_cases hsigned : Signed image sector
    · cases hlink : linkAt? image sector with
      | none => exact .inr (.unlinked hreadable hsigned hlink)
      | some link => exact .inl ⟨hreadable, hsigned, by rw [hlink]; rfl⟩
    · exact .inr (.unsigned hreadable hsigned)
  · exact .inr (.unreadable hreadable)

/-- The first `n` sectors of the chain are linked. -/
def Runs (image : Image) (base n : Nat) : Prop :=
  ∀ i < n, Linked image (chainSector image base i)

/-- The partitions in the first `n` sectors of the chain. -/
def logicals (image : Image) (base n : Nat) : List Entry :=
  (List.range n).flatMap fun i => (logicalAt? image (chainSector image base i)).toList

theorem logicals_succ (image : Image) (base n : Nat) :
    logicals image base (n + 1) =
      logicals image base n ++ (logicalAt? image (chainSector image base n)).toList := by
  rw [logicals, List.range_succ, List.flatMap_append, List.flatMap_singleton]
  rfl

theorem Runs.succ {image : Image} {base n : Nat} (h : Runs image base n)
    (hlinked : Linked image (chainSector image base n)) : Runs image base (n + 1) := by
  intro i hi
  rcases Nat.lt_or_eq_of_le (Nat.le_of_lt_succ hi) with hlt | rfl
  · exact h i hlt
  · exact hlinked

/-- Either all of the first `n` sectors are linked, or the chain stops at one of them. -/
theorem runs_or_stops (image : Image) (base n : Nat) :
    Runs image base n ∨
      ∃ k < n, Runs image base k ∧ Stops image (chainSector image base k) := by
  induction n with
  | zero => exact .inl fun i hi => absurd hi (Nat.not_lt_zero i)
  | succ n ih =>
    rcases ih with hruns | ⟨k, hlt, hruns, hstops⟩
    · rcases linked_or_stops image (chainSector image base n) with hlinked | hstops
      · exact .inl (hruns.succ hlinked)
      · exact .inr ⟨n, Nat.lt_succ_self n, hruns, hstops⟩
    · exact .inr ⟨k, Nat.lt_succ_of_lt hlt, hruns, hstops⟩

/-! ## Circles -/

theorem chainSector_add_of_eq {image : Image} {base i j : Nat}
    (h : chainSector image base i = chainSector image base j) (k : Nat) :
    chainSector image base (i + k) = chainSector image base (j + k) := by
  induction k with
  | zero => exact h
  | succ k ih => exact congrArg (sectorAfter image base) ih

/-- A chain of linked sectors that comes back to one of them goes on for ever. -/
theorem runs_of_cycle {image : Image} {base i j : Nat} (hlt : i < j) (hruns : Runs image base j)
    (hback : chainSector image base i = chainSector image base j) (n : Nat) :
    Runs image base n := by
  intro k _
  -- A sector behind the circle's end is one of a whole turn before.
  induction k using Nat.strongRecOn with
  | ind k ih =>
    rcases Nat.lt_or_ge k j with hk | hk
    · exact hruns k hk
    · obtain ⟨rest, rfl⟩ := Nat.exists_eq_add_of_le hk
      rw [← chainSector_add_of_eq hback rest]
      exact ih (i + rest) (by omega) (by omega)

/-! ## One sector -/

theorem entriesOf_signed {image : Image} {sector : Nat} (h : Signed image sector) :
    entriesOf (sectorBytes image sector) sector = .ok (slotsAt image sector) := by
  have hsignature : (sectorBytes image sector).leAt signatureOffset 2 = bootSignature := h
  rw [entriesOf, if_pos hsignature]
  simp only [Bytes.cut, slotsAt, List.map, Bytes.slice, List.drop_drop]
  rfl

theorem entriesOf_unsigned {image : Image} {sector : Nat} (h : ¬ Signed image sector) :
    entriesOf (sectorBytes image sector) sector =
      .error (.badSignature sector (signatureAt image sector)) := by
  have hsignature : ¬ (sectorBytes image sector).leAt signatureOffset 2 = bootSignature := h
  rw [entriesOf, if_neg hsignature]
  rfl

theorem logicalOf?_slotsAt (image : Image) (sector : Nat) :
    logicalOf? sector (slotsAt image sector) = logicalAt? image sector := by
  have hshift : ∀ entry : Entry, entry.shift sector =
      { entry with start := min 0xFFFFFFFF (sector + entry.start) } := by
    intro entry
    rw [Entry.shift, Nat.min_comm]
    rfl
  rw [logicalOf?, logicalAt?]
  simp only [hshift]
  rfl

theorem linkTarget_eq_sectorAfter {image : Image} {base sector : Nat} {link : Entry}
    (h : linkAt? image sector = some link) :
    linkTarget base link.start = sectorAfter image base sector := by
  rw [linkTarget, sectorAfter, h, Nat.min_comm]
  rfl

@[simp] theorem outcome_noteLogical (sector : Nat) (logical : Option Entry) :
    (noteLogical sector logical).outcome = .ok () := by
  cases logical <;> rfl

section Step

variable {image : Image} {base relative : Nat}

/-- A sector that cannot be read ends every walk. -/
theorem followChain_unreadable (mode : Mode) (fuel : Nat)
    (h : ¬ Readable image (linkTarget base relative)) :
    ∃ fault, (followChain image base mode (fuel + 1) relative).outcome = .error fault ∧
      fault.isIo = true := by
  rw [followChain]
  cases hread : image.read (linkTarget base relative * sectorSize) sectorSize with
  | ok data => exact absurd ((Image.read_eq_ok_iff_of_pos (by decide)).1 hread).1 h
  | error fault =>
    refine ⟨fault, rfl, ?_⟩
    obtain ⟨_, ⟨_, rfl⟩ | ⟨_, _, rfl⟩⟩ := Image.read_eq_error_iff.1 hread
    · rfl
    · rfl

theorem outcome_read {sector : Nat} (h : Readable image sector) :
    (liftM (image.read (sector * sectorSize) sectorSize) : Traced Bytes).outcome =
      .ok (sectorBytes image sector) :=
  (Image.read_eq_ok_iff_of_pos (by decide)).2 ⟨h, rfl⟩

/-- A sector without the signature ends a lenient walk and fails a strict one. -/
theorem followChain_unsigned (fuel : Nat) (hreadable : Readable image (linkTarget base relative))
    (h : ¬ Signed image (linkTarget base relative)) :
    (followChain image base .strict (fuel + 1) relative).outcome =
        .error (.badSignature (linkTarget base relative)
          (signatureAt image (linkTarget base relative))) ∧
      (followChain image base .bestEffort (fuel + 1) relative).outcome = .ok [] := by
  constructor
  · rw [followChain, Traced.outcome_bind_of_ok (outcome_read hreadable), entriesOf_unsigned h]
    rfl
  · rw [followChain, Traced.outcome_bind_of_ok (outcome_read hreadable), entriesOf_unsigned h]
    rfl

/-- A sector without a link ends every walk with what it holds. -/
theorem followChain_unlinked (mode : Mode) (fuel : Nat)
    (hreadable : Readable image (linkTarget base relative))
    (hsigned : Signed image (linkTarget base relative))
    (h : linkAt? image (linkTarget base relative) = none) :
    (followChain image base mode (fuel + 1) relative).outcome =
      .ok (logicalAt? image (linkTarget base relative)).toList := by
  have hlink : linkOf? (slotsAt image (linkTarget base relative)) = none := h
  rw [followChain, Traced.outcome_bind_of_ok (outcome_read hreadable), entriesOf_signed hsigned]
  dsimp only
  rw [Traced.outcome_bind_of_ok (outcome_noteLogical _ _), hlink, logicalOf?_slotsAt]
  rfl

/-- A linked sector adds what it holds to the walk from where it points to. -/
theorem followChain_linked (mode : Mode) (fuel : Nat)
    (h : Linked image (linkTarget base relative)) :
    ∃ next, linkTarget base next = sectorAfter image base (linkTarget base relative) ∧
      (followChain image base mode (fuel + 1) relative).outcome =
        (followChain image base mode fuel next).outcome.map
          ((logicalAt? image (linkTarget base relative)).toList ++ ·) := by
  obtain ⟨link, hlink⟩ := Option.isSome_iff_exists.1 h.isSome
  refine ⟨link.start, linkTarget_eq_sectorAfter hlink, ?_⟩
  have hlink' : linkOf? (slotsAt image (linkTarget base relative)) = some link := hlink
  rw [followChain, Traced.outcome_bind_of_ok (outcome_read h.readable), entriesOf_signed h.signed]
  dsimp only
  rw [Traced.outcome_bind_of_ok (outcome_noteLogical _ _), hlink', logicalOf?_slotsAt]
  dsimp only
  cases hrest : (followChain image base mode fuel link.start).outcome with
  | error fault =>
    rw [Traced.bind_of_error hrest]
    rfl
  | ok rest =>
    rw [Traced.outcome_bind_of_ok hrest]
    rfl

end Step

/-! ## Whole walks -/

/-- A walk along linked sectors collects what they hold and goes on behind them. -/
theorem followChain_runs (image : Image) (base : UInt32) (mode : Mode) (fuel : Nat) {n : Nat}
    (h : Runs image base.toNat n) :
    ∃ relative, linkTarget base.toNat relative = chainSector image base.toNat n ∧
      (followChain image base.toNat mode (fuel + n) 0).outcome =
        (followChain image base.toNat mode fuel relative).outcome.map
          (logicals image base.toNat n ++ ·) := by
  induction n generalizing fuel with
  | zero =>
    refine ⟨0, Nat.min_eq_left (Nat.le_of_lt_succ base.toNat_lt), ?_⟩
    cases (followChain image base.toNat mode fuel 0).outcome <;> rfl
  | succ n ih =>
    obtain ⟨relative, hsector, houtcome⟩ :=
      ih (fuel + 1) fun i hi => h i (Nat.lt_succ_of_lt hi)
    have hlinked := h n (Nat.lt_succ_self n)
    rw [← hsector] at hlinked
    obtain ⟨next, hnext, hstep⟩ := followChain_linked mode fuel hlinked
    refine ⟨next, by rw [hnext, hsector]; rfl, ?_⟩
    rw [← Nat.add_assoc, Nat.add_right_comm, houtcome, hstep, logicals_succ, hsector]
    cases (followChain image base.toNat mode fuel next).outcome with
    | error fault => rfl
    | ok rest => exact congrArg Except.ok (List.append_assoc _ _ _).symm

/-- How the walks along the chain that starts at `base` end. -/
structure ChainEnds (image : Image) (base : Nat) : Prop where
  /-- Behind linked sectors one without a link: both walks list all of them. -/
  closed : ∀ n < 64, Runs image base n → Readable image (chainSector image base n) →
    Signed image (chainSector image base n) → linkAt? image (chainSector image base n) = none →
    ∀ mode, (walkChain image base mode).outcome = .ok (logicals image base (n + 1))
  /-- Behind linked sectors one without the signature: only a lenient walk lists them. -/
  broken : ∀ n < 64, Runs image base n → Readable image (chainSector image base n) →
    ¬ Signed image (chainSector image base n) →
    (walkChain image base .bestEffort).outcome = .ok (logicals image base n) ∧
      (walkChain image base .strict).outcome =
        .error (.badSignature (chainSector image base n)
          (signatureAt image (chainSector image base n)))
  /-- Behind linked sectors one that cannot be read: both walks fail. -/
  unreadable : ∀ n < 64, Runs image base n → ¬ Readable image (chainSector image base n) →
    ∀ mode, ∃ fault, (walkChain image base mode).outcome = .error fault ∧ fault.isIo = true
  /-- Only sixty-four linked sectors make a chain too long. -/
  tooLong : ∀ mode, (walkChain image base mode).outcome = .error (.chainTooLong 64) ↔
    Runs image base 64
  /-- A chain that comes back to one of its sectors is too long. -/
  circular : ∀ i j, i < j → Runs image base j →
    chainSector image base i = chainSector image base j →
    ∀ mode, (walkChain image base mode).outcome = .error (.chainTooLong 64)
  /-- There is no other end. -/
  complete : Runs image base 64 ∨
    ∃ n < 64, Runs image base n ∧ Stops image (chainSector image base n)

theorem walkChain_runs (image : Image) (base : UInt32) (mode : Mode) {n : Nat} (hlt : n < 64)
    (h : Runs image base.toNat n) :
    ∃ fuel relative, linkTarget base.toNat relative = chainSector image base.toNat n ∧
      (walkChain image base.toNat mode).outcome =
        (followChain image base.toNat mode (fuel + 1) relative).outcome.map
          (logicals image base.toNat n ++ ·) := by
  obtain ⟨relative, hsector, houtcome⟩ := followChain_runs image base mode (63 - n + 1) h
  refine ⟨63 - n, relative, hsector, ?_⟩
  rw [← houtcome, walkChain, show 63 - n + 1 + n = maxLogical by unfold maxLogical; omega]

theorem walkChain_tooLong (image : Image) (base : UInt32) (mode : Mode)
    (h : Runs image base.toNat 64) :
    (walkChain image base.toNat mode).outcome = .error (.chainTooLong 64) := by
  obtain ⟨relative, _, houtcome⟩ := followChain_runs image base mode 0 h
  rw [Nat.zero_add] at houtcome
  exact houtcome

theorem walkChain_closed (image : Image) (base : UInt32) (mode : Mode) {n : Nat} (hlt : n < 64)
    (h : Runs image base.toNat n) (hreadable : Readable image (chainSector image base.toNat n))
    (hsigned : Signed image (chainSector image base.toNat n))
    (hlink : linkAt? image (chainSector image base.toNat n) = none) :
    (walkChain image base.toNat mode).outcome = .ok (logicals image base.toNat (n + 1)) := by
  obtain ⟨fuel, relative, hsector, houtcome⟩ := walkChain_runs image base mode hlt h
  rw [← hsector] at hreadable hsigned hlink
  rw [houtcome, followChain_unlinked mode fuel hreadable hsigned hlink, hsector, logicals_succ]
  rfl

theorem walkChain_broken (image : Image) (base : UInt32) {n : Nat} (hlt : n < 64)
    (h : Runs image base.toNat n) (hreadable : Readable image (chainSector image base.toNat n))
    (hsigned : ¬ Signed image (chainSector image base.toNat n)) :
    (walkChain image base.toNat .bestEffort).outcome = .ok (logicals image base.toNat n) ∧
      (walkChain image base.toNat .strict).outcome =
        .error (.badSignature (chainSector image base.toNat n)
          (signatureAt image (chainSector image base.toNat n))) := by
  constructor
  · obtain ⟨fuel, relative, hsector, houtcome⟩ := walkChain_runs image base .bestEffort hlt h
    rw [← hsector] at hreadable hsigned
    rw [houtcome, (followChain_unsigned fuel hreadable hsigned).2]
    exact congrArg Except.ok (List.append_nil _)
  · obtain ⟨fuel, relative, hsector, houtcome⟩ := walkChain_runs image base .strict hlt h
    rw [← hsector] at hreadable hsigned
    rw [houtcome, (followChain_unsigned fuel hreadable hsigned).1, hsector]
    rfl

theorem walkChain_unreadable (image : Image) (base : UInt32) (mode : Mode) {n : Nat}
    (hlt : n < 64) (h : Runs image base.toNat n)
    (hreadable : ¬ Readable image (chainSector image base.toNat n)) :
    ∃ fault, (walkChain image base.toNat mode).outcome = .error fault ∧ fault.isIo = true := by
  obtain ⟨fuel, relative, hsector, houtcome⟩ := walkChain_runs image base mode hlt h
  rw [← hsector] at hreadable
  obtain ⟨fault, hfault, hio⟩ := followChain_unreadable mode fuel hreadable
  refine ⟨fault, ?_, hio⟩
  rw [houtcome, hfault]
  rfl

/-- How every walk along a chain ends, in both modes: it lists the partitions in its sectors, fails at
the first sector that is not linked, or is too long. -/
theorem walkChain_ends (image : Image) (base : UInt32) : ChainEnds image base.toNat where
  closed n hlt hruns hreadable hsigned hlink mode :=
    walkChain_closed image base mode hlt hruns hreadable hsigned hlink
  broken n hlt hruns hreadable hsigned :=
    walkChain_broken image base hlt hruns hreadable hsigned
  unreadable n hlt hruns hreadable mode :=
    walkChain_unreadable image base mode hlt hruns hreadable
  tooLong mode := by
    refine ⟨?_, walkChain_tooLong image base mode⟩
    intro hlong
    rcases runs_or_stops image base.toNat 64 with hruns | ⟨n, hlt, hruns, hstops⟩
    · exact hruns
    · cases hstops with
      | unreadable hreadable =>
        obtain ⟨fault, hfault, hio⟩ := walkChain_unreadable image base mode hlt hruns hreadable
        rw [hlong] at hfault
        cases hfault
        cases hio
      | unsigned hreadable hsigned =>
        obtain ⟨hlenient, hstrict⟩ := walkChain_broken image base hlt hruns hreadable hsigned
        cases mode with
        | strict =>
          rw [hlong] at hstrict
          cases hstrict
        | bestEffort =>
          rw [hlong] at hlenient
          cases hlenient
      | unlinked hreadable hsigned hlink =>
        have hclosed := walkChain_closed image base mode hlt hruns hreadable hsigned hlink
        rw [hlong] at hclosed
        cases hclosed
  circular i j hlt hruns hback mode :=
    walkChain_tooLong image base mode (runs_of_cycle hlt hruns hback 64)
  complete := runs_or_stops image base.toNat 64

end DiskScope.Partition
