/-
  DiskScope/Proofs/Xfs/ScanExact.lean --- a scan reports what it owes.

  WHAT THIS FILE IS FOR.  A scan goes from block to block and holds back what it finds
  inside a range of log blocks until the range has ended.  `Standing` says what a cursor
  knows between two blocks.  Every block that is scanned keeps it and releases exactly the
  reports that are owed between where the scan was settled before and where it is now.

  WHAT IS SETTLED.  `front` is the first block with reports that are still to come: the
  first one of the open range, or the block of the next position.

  MAIN STATEMENTS.

      take_eq          handing out one item at a time gives the items of the whole scan
      settle_moves     what one block preserves and releases
      itemsFrom_onward what a scan that stands anywhere still reports
      ofBlocks_exact   a whole scan lists what is owed and fails nowhere
-/
import DiskScope.Proofs.Xfs.ScanBlock
import Mathlib.Data.List.Basic

set_option autoImplicit false

namespace DiskScope.Xfs.Scan

open ScanHit

/-! ## One item at a time -/

/-- Everything that is still to be handed out. -/
def pendingItems (scan : Scan) (pending : Pending) : List (Except Fault ScanHit) :=
  pending.queue.map .ok ++ (pending.cursor.map scan.itemsFrom).getD []

theorem seek_spec (scan : Scan) (cursor : Cursor) :
    (scan.seek cursor).1 = (scan.itemsFrom cursor).head? ∧
      scan.pendingItems (scan.seek cursor).2 = (scan.itemsFrom cursor).tail := by
  fun_induction seek scan cursor with
  | case1 cursor fault hstep =>
    rw [itemsFrom, hstep]
    exact ⟨rfl, rfl⟩
  | case2 cursor hits hstep =>
    rw [itemsFrom, hstep]
    cases hits with
    | nil => exact ⟨rfl, rfl⟩
    | cons hit later => exact ⟨rfl, List.append_nil _⟩
  | case3 cursor next _ hstep ih =>
    rw [itemsFrom, hstep]
    exact ih
  | case4 cursor next hit later hstep =>
    rw [itemsFrom, hstep]
    exact ⟨rfl, rfl⟩

theorem next_spec (scan : Scan) (pending : Pending) :
    (scan.next pending).1 = (scan.pendingItems pending).head? ∧
      scan.pendingItems (scan.next pending).2 = (scan.pendingItems pending).tail := by
  obtain ⟨queue, cursor⟩ := pending
  cases queue with
  | cons hit later => exact ⟨rfl, rfl⟩
  | nil =>
    cases cursor with
    | none => exact ⟨rfl, rfl⟩
    | some cursor => exact scan.seek_spec cursor

theorem takeFrom_eq (scan : Scan) (count : Nat) (pending : Pending) :
    scan.takeFrom count pending = (scan.pendingItems pending).take count := by
  induction count generalizing pending with
  | zero => rfl
  | succ count ih =>
    obtain ⟨hhead, htail⟩ := scan.next_spec pending
    rw [takeFrom]
    split
    · rename_i hnext
      rw [hnext] at hhead
      rw [List.head?_eq_none_iff.1 hhead.symm, List.take_nil]
    · rename_i item rest hnext
      rw [hnext] at hhead htail
      rw [ih, htail, ← List.take_succ_cons, List.cons_head?_tail hhead.symm]

/-- The items that are handed out one at a time are those of the whole scan. -/
theorem take_eq (scan : Scan) (count : Nat) : scan.take count = scan.toList.take count :=
  scan.takeFrom_eq count .first

/-! ## Between two blocks -/

variable {scan : Scan} {cursor : Cursor}

/-- The range from `first` to `last` is open: it is one of log blocks that may go on, and what was
found in it is held back. -/
structure Opens (scan : Scan) (cursor : Cursor) (first last : Nat) : Prop where
  first_le : first ≤ last
  last_lt : last < cursor.position / scan.blockSize
  hasLog : ∀ block, first ≤ block → block ≤ last → scan.HasLog block
  begins : ∀ block, block + 1 = first → ¬ scan.HasLog block
  skipped : ∀ block, scan.Reaches block →
    block ≤ last ∨ cursor.position / scan.blockSize ≤ block
  held : Lists (fun hit => scan.Owes hit ∧ hit.IsFound ∧ first ≤ hit.block ∧ hit.block ≤ last)
    cursor.held

/-- What a cursor knows between two blocks. -/
structure Standing (scan : Scan) (cursor : Cursor) : Prop where
  leads : scan.Leads cursor.position
  closed : cursor.openRange = none → cursor.held = [] ∧
    ∀ block, block + 1 = cursor.position / scan.blockSize → ¬ scan.HasLog block
  opened : ∀ first last, cursor.openRange = some (first, last) → scan.Opens cursor first last

/-- The first block with reports that are still to come. -/
def front (scan : Scan) (cursor : Cursor) : Nat :=
  (cursor.openRange.map Prod.fst).getD (cursor.position / scan.blockSize)

/-- The list has, in order, the reports that are owed from block `lo` to before block `hi`. -/
def Between (scan : Scan) (lo hi : Nat) (hits : List ScanHit) : Prop :=
  Lists (fun hit => scan.Owes hit ∧ lo ≤ hit.block ∧ hit.block < hi) hits

/-- The list has, in order, the reports that are owed from block `lo` on. -/
def Onward (scan : Scan) (lo : Nat) (hits : List ScanHit) : Prop :=
  Lists (fun hit => scan.Owes hit ∧ lo ≤ hit.block) hits

theorem front_of_none (h : cursor.openRange = none) :
    scan.front cursor = cursor.position / scan.blockSize := by
  rw [front, h]
  rfl

theorem front_of_some {first last : Nat} (h : cursor.openRange = some (first, last)) :
    scan.front cursor = first := by
  rw [front, h]
  rfl

theorem front_first (scan : Scan) : scan.front .first = 0 :=
  (front_of_none rfl).trans (Nat.zero_div _)

theorem Onward.lists {hits : List ScanHit} (h : scan.Onward (scan.front .first) hits) :
    Lists scan.Owes hits := by
  refine h.congr fun hit => and_iff_left ?_
  rw [front_first]
  exact Nat.zero_le _

theorem standing_first (scan : Scan) : scan.Standing .first := by
  refine ⟨scan.leads_zero, ?_, ?_⟩
  · intro _
    refine ⟨rfl, ?_⟩
    intro block hblock
    rw [Cursor.first, Nat.zero_div] at hblock
    cases hblock
  · intro first last hopen
    cases hopen

theorem Standing.front_le (h : scan.Standing cursor) :
    scan.front cursor ≤ cursor.position / scan.blockSize := by
  cases hopen : cursor.openRange with
  | none => exact Nat.le_of_eq (front_of_none hopen)
  | some range =>
    obtain ⟨first, last⟩ := range
    have hopens := h.opened first last hopen
    rw [front_of_some hopen]
    exact Nat.le_trans hopens.first_le (Nat.le_of_lt hopens.last_lt)

theorem between_self (scan : Scan) (lo : Nat) : scan.Between lo lo [] := by
  refine lists_nil ?_
  rintro hit ⟨_, hle, hlt⟩
  exact Nat.not_lt.2 hle hlt

theorem Between.append {lo mid hi : Nat} {hits more : List ScanHit} (h : scan.Between lo mid hits)
    (hmore : scan.Between mid hi more) (hlo : lo ≤ mid) (hhi : mid ≤ hi) :
    scan.Between lo hi (hits ++ more) := by
  refine Lists.join mid (h.congr fun hit => ?_) (hmore.congr fun hit => ?_)
  · constructor
    · rintro ⟨howes, hle, hlt⟩
      exact ⟨⟨howes, hle, Nat.lt_of_lt_of_le hlt hhi⟩, hlt⟩
    · rintro ⟨⟨howes, hle, _⟩, hlt⟩
      exact ⟨howes, hle, hlt⟩
  · constructor
    · rintro ⟨howes, hle, hlt⟩
      exact ⟨⟨howes, Nat.le_trans hlo hle, hlt⟩, hle⟩
    · rintro ⟨⟨howes, _, hlt⟩, hle⟩
      exact ⟨howes, hle, hlt⟩

theorem Between.append_onward {lo mid : Nat} {hits more : List ScanHit}
    (h : scan.Between lo mid hits) (hmore : scan.Onward mid more) (hlo : lo ≤ mid) :
    scan.Onward lo (hits ++ more) := by
  refine Lists.join mid (h.congr fun hit => and_assoc.symm) (hmore.congr fun hit => ?_)
  constructor
  · rintro ⟨howes, hle⟩
    exact ⟨⟨howes, Nat.le_trans hlo hle⟩, hle⟩
  · rintro ⟨⟨howes, _⟩, hle⟩
    exact ⟨howes, hle⟩

/-! ## Closing a range -/

/-- Between the range and the next block to scan there is no log record. -/
theorem Opens.not_hasLog {first last block : Nat} (h : scan.Opens cursor first last)
    (hlast : last < block) (hlt : block < cursor.position / scan.blockSize) :
    ¬ scan.HasLog block := by
  intro hlog
  rcases h.skipped block hlog.reaches with hle | hge
  · exact Nat.not_lt.2 hle hlast
  · exact Nat.not_lt.2 hge hlt

/-- A range that has ended is the only one that is owed for its blocks. -/
theorem Opens.eq_of_owes {first last first' last' : Nat} (h : scan.Opens cursor first last)
    (hends : ¬ scan.HasLog (last + 1)) (howes : scan.Owes (.logRange first' last'))
    (hle : first ≤ first') (hlt : first' < cursor.position / scan.blockSize) :
    first' = first ∧ last' = last := by
  obtain ⟨hle', hlog', hbegins', hends'⟩ := howes
  have hinside : first' ≤ last := by
    by_contra hgt
    exact h.not_hasLog (Nat.lt_of_not_le hgt) hlt (hlog' first' (Nat.le_refl first') hle')
  constructor
  -- A range that begins later is not as long as it can be: the block in front has a log record too.
  · by_contra hne
    refine hbegins' (first' - 1) (by omega) (h.hasLog (first' - 1) ?_ ?_) <;> omega
  · rcases Nat.lt_trichotomy last' last with hlt' | heq | hgt
    · exact absurd (h.hasLog (last' + 1) (by omega) hlt') hends'
    · exact heq
    · exact absurd (hlog' (last + 1) (by omega) hgt) hends

theorem Opens.lists_cons {first last : Nat} (h : scan.Opens cursor first last)
    (hends : ¬ scan.HasLog (last + 1)) :
    scan.Between first (cursor.position / scan.blockSize)
      (.logRange first last :: cursor.held) := by
  refine (h.held.cons ?_).congr ?_
  · rintro hit ⟨_, hfound, hle, _⟩
    cases hit with
    | logRange first' last' => cases hfound
    | found block offset kind =>
      rcases Nat.lt_or_eq_of_le hle with hlt | heq
      · exact .inl hlt
      · exact .inr ⟨heq, Nat.succ_pos offset⟩
  · intro hit
    constructor
    · rintro (rfl | ⟨howes, _, hle, hle'⟩)
      · exact ⟨⟨h.first_le, h.hasLog, h.begins, hends⟩, Nat.le_refl first,
          Nat.lt_of_le_of_lt h.first_le h.last_lt⟩
      · exact ⟨howes, hle, Nat.lt_of_le_of_lt hle' h.last_lt⟩
    · rintro ⟨howes, hle, hlt⟩
      cases hit with
      | logRange first' last' =>
        obtain ⟨rfl, rfl⟩ := h.eq_of_owes hends howes hle hlt
        exact .inl rfl
      | found block offset kind =>
        rcases h.skipped _ howes.reaches with hle' | hge
        · exact .inr ⟨howes, trivial, hle, hle'⟩
        · exact absurd hlt (Nat.not_lt.2 hge)

/-- What is released once the open range has ended. -/
theorem Standing.between_release (h : scan.Standing cursor)
    (hends : ∀ first last, cursor.openRange = some (first, last) → ¬ scan.HasLog (last + 1)) :
    scan.Between (scan.front cursor) (cursor.position / scan.blockSize) cursor.release := by
  cases hopen : cursor.openRange with
  | none =>
    rw [front_of_none hopen, Cursor.release, hopen, (h.closed hopen).1]
    exact scan.between_self _
  | some range =>
    obtain ⟨first, last⟩ := range
    rw [front_of_some hopen, Cursor.release, hopen]
    exact (h.opened first last hopen).lists_cons (hends first last hopen)

/-! ## Scanning a block -/

/-- No range is open that the block could make longer. -/
def Cursor.Apart (cursor : Cursor) (block : Nat) : Prop :=
  ∀ first last, cursor.openRange = some (first, last) → last + 1 ≠ block

theorem Standing.ends (h : scan.Standing cursor)
    (hlog : ∀ first last, cursor.openRange = some (first, last) →
      last + 1 = cursor.position / scan.blockSize →
      ¬ scan.HasLog (cursor.position / scan.blockSize))
    (first last : Nat) (hopen : cursor.openRange = some (first, last)) :
    ¬ scan.HasLog (last + 1) := by
  have hopens := h.opened first last hopen
  rcases Nat.lt_or_eq_of_le (Nat.succ_le_of_lt hopens.last_lt) with hlt | heq
  · exact hopens.not_hasLog (Nat.lt_succ_self last) hlt
  · have hnext : last + 1 = cursor.position / scan.blockSize := heq
    rw [hnext]
    exact hlog first last hopen hnext

theorem Standing.between_release_of_apart (h : scan.Standing cursor)
    (hapart : cursor.Apart (cursor.position / scan.blockSize)) :
    scan.Between (scan.front cursor) (cursor.position / scan.blockSize) cursor.release := by
  refine h.between_release (h.ends ?_)
  intro first last hopen heq
  exact absurd heq (hapart first last hopen)

theorem Standing.not_hasLog_before (h : scan.Standing cursor)
    (hends : cursor.Apart (cursor.position / scan.blockSize)) {block : Nat}
    (hblock : block + 1 = cursor.position / scan.blockSize) : ¬ scan.HasLog block := by
  cases hopen : cursor.openRange with
  | none => exact (h.closed hopen).2 block hblock
  | some range =>
    obtain ⟨first, last⟩ := range
    have hopens := h.opened first last hopen
    have hne := hends first last hopen
    have hlt := hopens.last_lt
    exact hopens.not_hasLog (by omega) (by omega)

/-- A log block right behind the open range makes it longer. -/
theorem Standing.extend {first last : Nat} (h : scan.Standing cursor)
    (hwhole : scan.blockSize ∣ scan.limit) (hlt : cursor.position < scan.limit)
    (hopen : cursor.openRange = some (first, last))
    (hnext : cursor.position / scan.blockSize = last + 1)
    (hlog : scan.HasLog (cursor.position / scan.blockSize)) :
    scan.Standing ⟨scan.positionAfter cursor.position,
      some (first, cursor.position / scan.blockSize),
      cursor.held ++ scan.hitsOf cursor.position⟩ := by
  have hopens := h.opened first last hopen
  have hfirst := hopens.first_le
  refine ⟨h.leads.positionAfter, nofun, ?_⟩
  rintro _ _ ⟨⟩
  refine ⟨by omega, scan.div_lt_div_positionAfter _, ?_, hopens.begins,
    fun block hblock => h.leads.le_or_le_of_reaches hblock, ?_⟩
  · intro block hle hle'
    rcases Nat.lt_or_eq_of_le hle' with hlt' | rfl
    · exact hopens.hasLog block hle (by omega)
    · exact hlog
  · refine Lists.join (cursor.position / scan.blockSize) (hopens.held.congr fun hit => ?_)
      ((h.leads.lists_hitsOf hwhole hlt).congr fun hit => ?_)
    · constructor
      · rintro ⟨howes, hfound, hle, hle'⟩
        exact ⟨⟨howes, hfound, hle, by omega⟩, show hit.block < _ by omega⟩
      · rintro ⟨⟨howes, hfound, hle, _⟩, hlt'⟩
        exact ⟨howes, hfound, hle, by omega⟩
    · constructor
      · rintro ⟨howes, hfound, hblock⟩
        exact ⟨⟨howes, hfound, by omega, by omega⟩, Nat.le_of_eq hblock.symm⟩
      · rintro ⟨⟨howes, hfound, _, hle⟩, hge⟩
        exact ⟨howes, hfound, Nat.le_antisymm hle hge⟩

/-- Any other log block opens a range. -/
theorem Standing.reopen (h : scan.Standing cursor) (hwhole : scan.blockSize ∣ scan.limit)
    (hlt : cursor.position < scan.limit)
    (hlog : scan.HasLog (cursor.position / scan.blockSize))
    (hapart : cursor.Apart (cursor.position / scan.blockSize)) :
    scan.Standing ⟨scan.positionAfter cursor.position,
      some (cursor.position / scan.blockSize, cursor.position / scan.blockSize),
      scan.hitsOf cursor.position⟩ := by
  refine ⟨h.leads.positionAfter, nofun, ?_⟩
  rintro _ _ ⟨⟩
  refine ⟨Nat.le_refl _, scan.div_lt_div_positionAfter _, ?_,
    fun block => h.not_hasLog_before hapart,
    fun block hblock => h.leads.le_or_le_of_reaches hblock, ?_⟩
  · intro block hle hle'
    rwa [Nat.le_antisymm hle' hle]
  · refine (h.leads.lists_hitsOf hwhole hlt).congr ?_
    intro hit
    rw [Nat.le_antisymm_iff, and_comm (a := hit.block ≤ _)]

/-- A block without a log record leaves no range open. -/
theorem Standing.close (h : scan.Standing cursor)
    (hlog : ¬ scan.HasLog (cursor.position / scan.blockSize)) :
    scan.Standing ⟨scan.positionAfter cursor.position, none, []⟩ := by
  refine ⟨h.leads.positionAfter, ?_, nofun⟩
  intro _
  refine ⟨rfl, ?_⟩
  intro block hblock hlog'
  have hlt := scan.div_lt_div_positionAfter cursor.position
  rcases h.leads.le_or_le_of_reaches hlog'.reaches with hle | hge
  · obtain rfl : block = cursor.position / scan.blockSize := by
      change block + 1 = scan.positionAfter cursor.position / scan.blockSize at hblock
      omega
    exact hlog hlog'
  · change block + 1 = scan.positionAfter cursor.position / scan.blockSize at hblock
    omega

/-- In a block without a log record, everything that is owed has been found. -/
theorem Standing.between_hitsOf (h : scan.Standing cursor)
    (hwhole : scan.blockSize ∣ scan.limit) (hlt : cursor.position < scan.limit)
    (hlog : ¬ scan.HasLog (cursor.position / scan.blockSize)) :
    scan.Between (cursor.position / scan.blockSize)
      (scan.positionAfter cursor.position / scan.blockSize) (scan.hitsOf cursor.position) := by
  refine (h.leads.lists_hitsOf hwhole hlt).congr ?_
  intro hit
  constructor
  · rintro ⟨howes, _, hblock⟩
    refine ⟨howes, Nat.le_of_eq hblock.symm, ?_⟩
    rw [hblock]
    exact scan.div_lt_div_positionAfter cursor.position
  · rintro ⟨howes, hle, hlt'⟩
    have hblock : hit.block = cursor.position / scan.blockSize := by
      rcases h.leads.le_or_le_of_reaches howes.reaches with hle' | hge
      · exact Nat.le_antisymm hle' hle
      · exact absurd hlt' (Nat.not_lt.2 hge)
    refine ⟨howes, ?_, hblock⟩
    cases hit with
    | found block offset kind => trivial
    | logRange first last =>
      obtain rfl : first = cursor.position / scan.blockSize := hblock
      exact absurd (howes.2.1 _ (Nat.le_refl _) howes.1) hlog

/-- What scanning a block comes to, in terms of what its tested positions hold. -/
theorem settle_foundFrom (scan : Scan) (cursor : Cursor) (after : Nat) :
    settle cursor (cursor.position / scan.blockSize) after (scan.foundFrom cursor.position) =
      if scan.hasLogRecord cursor.position then
        match cursor.openRange with
        | some (first, last) =>
          if cursor.position / scan.blockSize = last + 1 then
            .moved [] ⟨after, some (first, cursor.position / scan.blockSize),
              cursor.held ++ scan.hitsOf cursor.position⟩
          else
            .moved cursor.release ⟨after, some (cursor.position / scan.blockSize,
              cursor.position / scan.blockSize), scan.hitsOf cursor.position⟩
        | none =>
          .moved cursor.release ⟨after, some (cursor.position / scan.blockSize,
            cursor.position / scan.blockSize), scan.hitsOf cursor.position⟩
      else .moved (cursor.release ++ scan.hitsOf cursor.position) ⟨after, none, []⟩ :=
  rfl

/-- One block: what a cursor knows is kept, and what is released is what was settled. -/
theorem Standing.settle_moves (h : scan.Standing cursor) (hwhole : scan.blockSize ∣ scan.limit)
    (hlt : cursor.position < scan.limit) :
    ∃ hits next,
      settle cursor (cursor.position / scan.blockSize) (scan.positionAfter cursor.position)
        (scan.foundFrom cursor.position) = .moved hits next ∧
      scan.Standing next ∧ scan.Between (scan.front cursor) (scan.front next) hits ∧
      scan.front cursor ≤ scan.front next := by
  have hafter := Nat.le_of_lt (scan.div_lt_div_positionAfter cursor.position)
  rw [settle_foundFrom]
  by_cases hlog : scan.HasLog (cursor.position / scan.blockSize)
  · rw [if_pos ((h.leads.hasLogRecord_iff hwhole hlt).2 hlog)]
    cases hopen : cursor.openRange with
    | none =>
      have hapart : cursor.Apart (cursor.position / scan.blockSize) := by
        intro first last hsome
        rw [hopen] at hsome
        cases hsome
      exact ⟨_, _, rfl, h.reopen hwhole hlt hlog hapart, h.between_release_of_apart hapart,
        h.front_le⟩
    | some range =>
      obtain ⟨first, last⟩ := range
      dsimp only
      split
      · rename_i hnext
        refine ⟨_, _, rfl, h.extend hwhole hlt hopen hnext hlog, ?_, ?_⟩
        · rw [front_of_some hopen]
          exact scan.between_self first
        · exact Nat.le_of_eq (front_of_some hopen)
      · rename_i hnext
        have hapart : cursor.Apart (cursor.position / scan.blockSize) := by
          intro first' last' hsome
          rw [hopen] at hsome
          cases hsome
          exact Ne.symm hnext
        exact ⟨_, _, rfl, h.reopen hwhole hlt hlog hapart, h.between_release_of_apart hapart,
          h.front_le⟩
  · rw [if_neg (mt (h.leads.hasLogRecord_iff hwhole hlt).1 hlog)]
    have hrelease := h.between_release (h.ends fun _ _ _ _ => hlog)
    exact ⟨_, _, rfl, h.close hlog,
      hrelease.append (h.between_hitsOf hwhole hlt hlog) h.front_le hafter,
      Nat.le_trans h.front_le hafter⟩

/-! ## The whole scan -/

theorem step_of_le (h : scan.limit ≤ cursor.position) :
    scan.step cursor = .ended cursor.release :=
  if_pos h

theorem step_of_read {data : Bytes} (h : cursor.position < scan.limit)
    (hread : scan.image.read (cursor.position / scan.blockSize * scan.blockSize) scan.blockSize =
      .ok data) :
    scan.step cursor =
      settle cursor (cursor.position / scan.blockSize) (scan.positionAfter cursor.position)
        (probe scan.stride scan.stride_pos (cursor.position % scan.blockSize)
          (data.drop (cursor.position % scan.blockSize))) := by
  rw [step, if_neg (Nat.not_le.2 h)]
  dsimp only
  rw [hread]

theorem step_of_readable (h : cursor.position < scan.limit)
    (hread : cursor.position / scan.blockSize * scan.blockSize + scan.blockSize ≤
      scan.image.size) :
    scan.step cursor =
      settle cursor (cursor.position / scan.blockSize) (scan.positionAfter cursor.position)
        (scan.foundFrom cursor.position) := by
  rw [step_of_read h (Image.read_eq_ok_iff.2 ⟨.inl hread, rfl⟩), Image.drop_bytesFrom, foundFrom,
    Nat.mul_comm, Nat.div_add_mod]

theorem Standing.onward_release (h : scan.Standing cursor)
    (hend : scan.limit ≤ cursor.position) :
    scan.Onward (scan.front cursor) cursor.release := by
  have hreaches : ∀ block, scan.Reaches block → block < cursor.position / scan.blockSize := by
    rintro block ⟨tested, htests, rfl⟩
    have hlt := Nat.lt_of_lt_of_le htests.2 hend
    refine Nat.lt_of_le_of_ne (Nat.div_le_div_right (Nat.le_of_lt hlt)) ?_
    intro hblock
    exact Nat.not_lt.2 (h.leads.le_of_tests tested htests hblock) hlt
  refine (h.between_release ?_).congr ?_
  · intro first last hopen hlog
    have hopens := h.opened first last hopen
    exact hopens.not_hasLog (Nat.lt_succ_self last) (hreaches _ hlog.reaches) hlog
  · intro hit
    constructor
    · rintro ⟨howes, hle, _⟩
      exact ⟨howes, hle⟩
    · rintro ⟨howes, hle⟩
      exact ⟨howes, hle, hreaches _ howes.reaches⟩

/-- A step of a scan whose blocks can all be read. -/
theorem Standing.step_spec (h : scan.Standing cursor) (hwhole : scan.blockSize ∣ scan.limit)
    (hsize : scan.limit ≤ scan.image.size) :
    (scan.step cursor = .ended cursor.release ∧ scan.Onward (scan.front cursor) cursor.release) ∨
      ∃ hits next, scan.step cursor = .moved hits next ∧ scan.Standing next ∧
        scan.Between (scan.front cursor) (scan.front next) hits ∧
        scan.front cursor ≤ scan.front next := by
  rcases Nat.lt_or_ge cursor.position scan.limit with hlt | hge
  · rw [step_of_readable hlt (Nat.le_trans ((lt_limit_iff hwhole).1 hlt) hsize)]
    exact .inr (h.settle_moves hwhole hlt)
  · exact .inl ⟨step_of_le hge, h.onward_release hge⟩

/-- What a scan that stands anywhere still reports: all that is owed and not yet settled. -/
theorem itemsFrom_onward (hwhole : scan.blockSize ∣ scan.limit)
    (hsize : scan.limit ≤ scan.image.size) (cursor : Cursor) (h : scan.Standing cursor) :
    ∃ hits, scan.itemsFrom cursor = hits.map .ok ∧ scan.Onward (scan.front cursor) hits := by
  induction hleft : scan.limit - cursor.position using Nat.strongRecOn generalizing cursor with
  | ind left ih =>
    rcases h.step_spec hwhole hsize with
      ⟨hstep, honward⟩ | ⟨hits, next, hstep, hnext, hbetween, hfront⟩
    · rw [itemsFrom, hstep]
      exact ⟨cursor.release, rfl, honward⟩
    · have hless := step_moved hstep
      rw [hleft] at hless
      obtain ⟨later, hitems, hlater⟩ := ih _ hless next hnext rfl
      rw [itemsFrom, hstep]
      dsimp only
      rw [hitems, ← List.map_append]
      exact ⟨hits ++ later, rfl, hbetween.append_onward hlater hfront⟩

/-- A scan of blocks that can all be read fails nowhere and reports, in order and once each, every
structure at a tested position and every range of log blocks, whether its items are taken all at
once or one at a time. -/
theorem ofBlocks_exact (image : Image) {blockSize total stride : Nat} (hblock : 0 < blockSize)
    (hstride : 0 < stride) (hsize : total * blockSize ≤ image.size) :
    ∃ hits : List ScanHit,
      (ofBlocks image blockSize total stride).toList = hits.map .ok ∧
      (∀ count, (ofBlocks image blockSize total stride).take count =
        (hits.map .ok).take count) ∧
      hits.Nodup ∧
      Lists (Owes ⟨image, blockSize, stride, total * blockSize, hblock, hstride⟩) hits := by
  have hscan : ofBlocks image blockSize total stride =
      ⟨image, blockSize, stride, total * blockSize, hblock, hstride⟩ := by
    simp only [ofBlocks, Nat.max_eq_left hblock, Nat.max_eq_left hstride]
  rw [hscan]
  generalize hgen : (⟨image, blockSize, stride, total * blockSize, hblock, hstride⟩ : Scan) = scan
  have hwhole : scan.blockSize ∣ scan.limit := by
    rw [← hgen]
    exact Nat.dvd_mul_left blockSize total
  have hsize' : scan.limit ≤ scan.image.size := by
    rw [← hgen]
    exact hsize
  obtain ⟨hits, hitems, honward⟩ := itemsFrom_onward hwhole hsize' .first scan.standing_first
  have hlists : Lists scan.Owes hits := by
    refine honward.congr fun hit => ⟨And.left, fun howes => ⟨howes, ?_⟩⟩
    rw [front_of_none rfl, Cursor.first, Nat.zero_div]
    exact Nat.zero_le _
  refine ⟨hits, hitems, ?_, hlists.nodup, hlists⟩
  intro count
  rw [take_eq, toList, hitems]

/-- Five blocks of eight bytes: a superblock, two log blocks of which the first also has a
free-space header, a blank block, and a third log block. -/
def logDevice : Image :=
  (Image.zeros 40).overlay 0 ⟨#[
    0x58, 0x46, 0x53, 0x42, 0, 0, 0, 0,
    0xFE, 0xED, 0xBA, 0xBE, 0x58, 0x41, 0x47, 0x46,
    0, 0, 0, 0, 0xFE, 0xED, 0xBA, 0xBE,
    0, 0, 0, 0, 0, 0, 0, 0,
    0xFE, 0xED, 0xBA, 0xBE, 0, 0, 0, 0]⟩

theorem logDevice_exact :
    0 < 8 ∧ 0 < 4 ∧ 5 * 8 ≤ logDevice.size ∧
      Lists (Owes ⟨logDevice, 8, 4, 5 * 8, by decide, by decide⟩)
        [.found 0 0 .superblock, .logRange 1 2, .found 1 4 .agf, .logRange 4 4] := by
  refine ⟨by decide, by decide, by decide, ?_⟩
  obtain ⟨hits, hitems, _, _, hlists⟩ :=
    ofBlocks_exact logDevice (show 0 < 8 by decide) (show 0 < 4 by decide)
      (show 5 * 8 ≤ logDevice.size by decide)
  have hlist : (ofBlocks logDevice 8 5 4).toList =
      [ScanHit.found 0 0 .superblock, .logRange 1 2, .found 1 4 .agf, .logRange 4 4].map .ok := by
    decide +kernel
  rw [hlist] at hitems
  rwa [List.map_injective_iff.2 (fun _ _ => Except.ok.inj) hitems]

end DiskScope.Xfs.Scan
