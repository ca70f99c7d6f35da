/-
  DiskScope/Proofs/Xfs/ScanFailure.lean --- how a scan ends that cannot read on.

  WHAT THIS FILE IS FOR.  A scan that comes to a block it cannot read reports the fault and
  ends.  What was settled by then has been reported; what waits for an open range is lost.
  Here the loss is said without the cursor of the scan: it is the range of log blocks
  that reaches the last tested block, and what was found in the blocks of that range.

  HOW.  As far as the broken block, a scan goes the way of the one that ends in front of it,
  `upTo`, whose blocks can all be read.  So what `Standing` says of that scan holds of
  the cursor of the other (`Approaches`), up to the step that fails.

  WHY A CURSOR WITHOUT A RANGE HAS LOST NOTHING.  With a stride beyond the size of a block, the last
  tested block may lie far in front of the next position.  That it has no log record
  does not follow from what is known of the block right in front, and is kept as `quiet`.

  MAIN STATEMENTS.

      call_eq          what the calls answer, one after another
      passes           the way of a scan to a block
      trailing_iff     what is not settled in front of a block is what will be lost
      ofBlocks_breaks  how a scan ends that meets a block which is not inside the image
-/
import DiskScope.Proofs.Xfs.ScanExact
import Mathlib.Data.Nat.Find

set_option autoImplicit false

namespace DiskScope.Xfs.Scan

open ScanHit

/-! ## Calls -/

/-- What is pending after `count` calls. -/
def pendingAfter (scan : Scan) : (count : Nat) → Pending
  | 0 => .first
  | count + 1 => (scan.next (scan.pendingAfter count)).2

/-- The answer to the call that `count` others went before. -/
def call (scan : Scan) (count : Nat) : Option (Except Fault ScanHit) :=
  (scan.next (scan.pendingAfter count)).1

theorem pendingItems_pendingAfter (scan : Scan) (count : Nat) :
    scan.pendingItems (scan.pendingAfter count) = scan.toList.drop count := by
  induction count with
  | zero => rfl
  | succ count ih =>
    rw [pendingAfter, (scan.next_spec _).2, ih, List.tail_drop]

/-- The calls answer the items of the whole scan, and from then on nothing. -/
theorem call_eq (scan : Scan) (count : Nat) : scan.call count = scan.toList[count]? := by
  rw [call, (scan.next_spec _).1, pendingItems_pendingAfter, List.head?_drop]

/-- The items of a scan that reports `hits` and then fails. -/
def failingWith (hits : List ScanHit) (fault : Fault) : List (Except Fault ScanHit) :=
  hits.map .ok ++ [.error fault]

theorem map_ok_inj {hits hits' : List ScanHit}
    (h : (hits.map .ok : List (Except Fault ScanHit)) = hits'.map .ok) : hits = hits' :=
  List.map_injective_iff.2 (fun _ _ => Except.ok.inj) h

theorem failingWith_inj {hits hits' : List ScanHit} {fault fault' : Fault}
    (h : failingWith hits fault = failingWith hits' fault') : hits = hits' ∧ fault = fault' := by
  obtain ⟨hhits, hfault⟩ := List.append_inj' h rfl
  exact ⟨map_ok_inj hhits, Except.error.inj (List.head_eq_of_cons_eq hfault)⟩

/-! ## The scan in front of a block -/

/-- The scan of the tested positions in front of `block`. -/
def upTo (scan : Scan) (block : Nat) : Scan :=
  { scan with limit := block * scan.blockSize }

/-- The block has a tested position and is not entirely inside the image. -/
def Broken (scan : Scan) (block : Nat) : Prop :=
  scan.Reaches block ∧ scan.image.size < block * scan.blockSize + scan.blockSize

/-- The report is of the range that reaches the last tested block, or of a structure in a block of
that range. -/
def Trailing (scan : Scan) (hit : ScanHit) : Prop :=
  ∃ first last, scan.Owes (.logRange first last) ∧
    (∀ block, scan.Reaches block → block ≤ last) ∧
    (hit = .logRange first last ∨ hit.IsFound ∧ first ≤ hit.block ∧ hit.block ≤ last)

variable {scan : Scan} {cursor : Cursor} {block : Nat}

/-- In front of a tested block, the shorter scan tests what the other does. -/
theorem tests_upTo_iff (hblock : scan.Reaches block) {position : Nat} :
    (scan.upTo block).Tests position ↔
      scan.Tests position ∧ position / scan.blockSize < block := by
  obtain ⟨tested, htests, rfl⟩ := hblock
  have hstart := Nat.div_mul_le_self tested scan.blockSize
  rw [Nat.div_lt_iff_lt_mul scan.blockSize_pos]
  constructor
  · rintro ⟨hdvd, hlt⟩
    exact ⟨⟨hdvd, Nat.lt_trans (Nat.lt_of_lt_of_le hlt hstart) htests.2⟩, hlt⟩
  · rintro ⟨⟨hdvd, _⟩, hlt⟩
    exact ⟨hdvd, hlt⟩

/-- Blocks with log records, with none behind them, are the end of a range that is owed. -/
theorem exists_range_of_hasLog {first last : Nat} (hle : first ≤ last)
    (hlog : ∀ block, first ≤ block → block ≤ last → scan.HasLog block)
    (hends : ¬ scan.HasLog (last + 1)) : ∃ lo, scan.Owes (.logRange lo last) := by
  -- The range is made longer at the front for as long as that is possible.
  induction first with
  | zero => exact ⟨0, hle, hlog, nofun, hends⟩
  | succ first ih =>
    by_cases hfront : scan.HasLog first
    · refine ih (Nat.le_of_succ_le hle) ?_
      intro block hge hle'
      rcases Nat.lt_or_eq_of_le hge with hlt | rfl
      · exact hlog block hlt hle'
      · exact hfront
    · refine ⟨first + 1, hle, hlog, ?_, hends⟩
      intro block hblock
      rwa [Nat.succ.inj hblock]

theorem not_hasLog_succ {last : Nat} (hlast : ∀ other, scan.Reaches other → other ≤ last) :
    ¬ scan.HasLog (last + 1) := by
  intro hlog
  exact Nat.not_succ_le_self last (hlast (last + 1) hlog.reaches)

theorem HasLog.exists_range {last : Nat} (h : scan.HasLog last) (hends : ¬ scan.HasLog (last + 1)) :
    ∃ first, scan.Owes (.logRange first last) := by
  refine exists_range_of_hasLog (Nat.le_refl last) ?_ hends
  intro block hge hle
  rwa [Nat.le_antisymm hle hge]

/-! ## On the way -/

/-- What a cursor knows on the way to `block`. -/
structure Approaches (scan : Scan) (block : Nat) (cursor : Cursor) : Prop where
  standing : (scan.upTo block).Standing cursor
  /-- Without an open range, the last tested block in front of the position has no log record. -/
  quiet : cursor.openRange = none → ∀ last, last < cursor.position / scan.blockSize →
    (∀ other, (scan.upTo block).Reaches other →
      other ≤ last ∨ cursor.position / scan.blockSize ≤ other) → ¬ (scan.upTo block).HasLog last
  /-- No tested position from `block` on has been passed. -/
  not_past : ∀ tested, scan.Tests tested → block ≤ tested / scan.blockSize →
    cursor.position ≤ tested

theorem approaches_first (scan : Scan) (block : Nat) : scan.Approaches block .first := by
  refine ⟨(scan.upTo block).standing_first, ?_, fun tested _ _ => Nat.zero_le tested⟩
  intro _ last hlast
  rw [Cursor.first, Nat.zero_div] at hlast
  cases hlast

theorem Standing.not_hasLog_of_moved {next : Cursor} {hits : List ScanHit}
    (h : scan.Standing cursor) (hwhole : scan.blockSize ∣ scan.limit)
    (hlt : cursor.position < scan.limit)
    (hmoved : settle cursor (cursor.position / scan.blockSize)
      (scan.positionAfter cursor.position) (scan.foundFrom cursor.position) = .moved hits next)
    (hclosed : next.openRange = none) : ¬ scan.HasLog (cursor.position / scan.blockSize) := by
  intro hlog
  rw [settle_foundFrom, if_pos ((h.leads.hasLogRecord_iff hwhole hlt).2 hlog)] at hmoved
  cases hopen : cursor.openRange with
  | none =>
    rw [hopen] at hmoved
    cases hmoved
    cases hclosed
  | some range =>
    rw [hopen] at hmoved
    dsimp only at hmoved
    split at hmoved
    · cases hmoved
      cases hclosed
    · cases hmoved
      cases hclosed

theorem Approaches.step (h : scan.Approaches block cursor)
    (hinside : block * scan.blockSize ≤ scan.limit)
    (hreadable : ∀ other < block, ¬ scan.Broken other)
    (hlt : cursor.position < block * scan.blockSize) :
    ∃ hits next, scan.step cursor = .moved hits next ∧ scan.Approaches block next ∧
      (scan.upTo block).Between (scan.front cursor) (scan.front next) hits ∧
      scan.front cursor ≤ scan.front next := by
  have hwhole : (scan.upTo block).blockSize ∣ (scan.upTo block).limit :=
    Nat.dvd_mul_left scan.blockSize block
  have hdvd := h.standing.leads.dvd
  have hbefore : cursor.position / scan.blockSize < block :=
    (Nat.div_lt_iff_lt_mul scan.blockSize_pos).2 hlt
  have hlimit := Nat.lt_of_lt_of_le hlt hinside
  have hread : cursor.position / scan.blockSize * scan.blockSize + scan.blockSize ≤
      scan.image.size := by
    by_contra hsize
    exact hreadable _ hbefore ⟨⟨cursor.position, ⟨hdvd, hlimit⟩, rfl⟩, Nat.lt_of_not_le hsize⟩
  obtain ⟨hits, next, hmoved, hnext, hbetween, hfront⟩ := h.standing.settle_moves hwhole hlt
  have hposition : next.position = scan.positionAfter cursor.position := position_settle hmoved
  refine ⟨hits, next, (step_of_readable hlimit hread).trans hmoved, ⟨hnext, ?_, ?_⟩, hbetween,
    hfront⟩
  · intro hclosed last hlast hskips hlog
    rw [hposition] at hlast hskips
    have hscanned : (scan.upTo block).Reaches (cursor.position / scan.blockSize) :=
      ⟨cursor.position, ⟨hdvd, hlt⟩, rfl⟩
    have hle : last ≤ cursor.position / scan.blockSize :=
      (h.standing.leads.le_or_le_of_reaches hlog.reaches).resolve_right (Nat.not_le.2 hlast)
    have hge : cursor.position / scan.blockSize ≤ last :=
      (hskips _ hscanned).resolve_right
        (Nat.not_le.2 (scan.div_lt_div_positionAfter cursor.position))
    rw [Nat.le_antisymm hle hge] at hlog
    exact h.standing.not_hasLog_of_moved hwhole hlt hmoved hclosed hlog
  · intro tested htests hge
    rw [hposition]
    by_contra hpassed
    have hle := le_of_lt_positionAfter hdvd htests.1 (Nat.lt_of_not_le hpassed)
    exact Nat.not_le.2 hbefore (Nat.le_trans hge hle)

/-- From `cursor` a scan comes to `final`, at or behind the beginning of `block`, and reports `hits`
on the way. -/
structure Passes (scan : Scan) (block : Nat) (cursor final : Cursor) (hits : List ScanHit) :
    Prop where
  items : scan.itemsFrom cursor = hits.map .ok ++ scan.itemsFrom final
  approaches : scan.Approaches block final
  arrived : block * scan.blockSize ≤ final.position
  between : (scan.upTo block).Between (scan.front cursor) (scan.front final) hits
  front_le : scan.front cursor ≤ scan.front final

/-- A scan comes to the first block that it cannot read. -/
theorem Approaches.passes (hinside : block * scan.blockSize ≤ scan.limit)
    (hreadable : ∀ other < block, ¬ scan.Broken other) (cursor : Cursor)
    (h : scan.Approaches block cursor) : ∃ hits final, scan.Passes block cursor final hits := by
  induction hleft : scan.limit - cursor.position using Nat.strongRecOn generalizing cursor with
  | ind left ih =>
    rcases Nat.lt_or_ge cursor.position (block * scan.blockSize) with hlt | hge
    · obtain ⟨hits, next, hstep, hnext, hbetween, hfront⟩ := h.step hinside hreadable hlt
      have hless := step_moved hstep
      rw [hleft] at hless
      obtain ⟨later, final, hpasses⟩ := ih _ hless next hnext rfl
      refine ⟨hits ++ later, final, ?_, hpasses.approaches, hpasses.arrived,
        hbetween.append hpasses.between hfront hpasses.front_le,
        Nat.le_trans hfront hpasses.front_le⟩
      rw [itemsFrom, hstep]
      dsimp only
      rw [hpasses.items, List.map_append, List.append_assoc]
    · exact ⟨[], cursor, rfl, h, hge, (scan.upTo block).between_self _, Nat.le_refl _⟩

/-! ## What is lost -/

/-- Every tested block in front of `block` has been scanned once the position is there. -/
theorem lt_of_reaches_upTo (harrived : block * scan.blockSize ≤ cursor.position) {other : Nat}
    (h : (scan.upTo block).Reaches other) : other < cursor.position / scan.blockSize := by
  obtain ⟨tested, htests, rfl⟩ := h
  have hblock : block ≤ cursor.position / scan.blockSize :=
    (Nat.le_div_iff_mul_le scan.blockSize_pos).2 harrived
  exact Nat.lt_of_lt_of_le ((Nat.div_lt_iff_lt_mul scan.blockSize_pos).2 htests.2) hblock

/-- Of two ranges that end in the same block, neither begins later: it would begin behind a block
with a log record. -/
theorem Owes.first_le {first first' last : Nat} (h : scan.Owes (.logRange first last))
    (h' : scan.Owes (.logRange first' last)) : first' ≤ first := by
  obtain ⟨_, hlog, _⟩ := h
  obtain ⟨hle, _, hbegins, _⟩ := h'
  by_contra hlt
  refine hbegins (first' - 1) (by omega) (hlog (first' - 1) ?_ ?_) <;> omega

/-- At `block`, what is not yet settled is what would be lost there. -/
theorem Approaches.trailing_iff (h : scan.Approaches block cursor)
    (harrived : block * scan.blockSize ≤ cursor.position) {hit : ScanHit}
    (howes : (scan.upTo block).Owes hit) :
    (scan.upTo block).Trailing hit ↔ scan.front cursor ≤ hit.block := by
  have hreached := lt_of_reaches_upTo harrived howes.reaches
  cases hopen : cursor.openRange with
  | none =>
    rw [front_of_none hopen]
    constructor
    · rintro ⟨first, last, hrange, hlast, _⟩
      have hlog := hrange.2.1 last hrange.1 (Nat.le_refl last)
      refine absurd hlog (h.quiet hopen last (lt_of_reaches_upTo harrived hlog.reaches) ?_)
      exact fun other hother => .inl (hlast other hother)
    · intro hle
      exact absurd hreached (Nat.not_lt.2 hle)
  | some range =>
    obtain ⟨first, last⟩ := range
    have hopens := h.standing.opened first last hopen
    have hlast : ∀ other, (scan.upTo block).Reaches other → other ≤ last := by
      intro other hother
      refine (hopens.skipped other hother).resolve_right ?_
      exact Nat.not_le.2 (lt_of_reaches_upTo harrived hother)
    have hends := not_hasLog_succ hlast
    have hrange : (scan.upTo block).Owes (.logRange first last) :=
      ⟨hopens.first_le, hopens.hasLog, hopens.begins, hends⟩
    rw [front_of_some hopen]
    constructor
    · rintro ⟨first', last', hrange', hlast', hhit⟩
      have hlog := hopens.hasLog last hopens.first_le (Nat.le_refl last)
      have hlog' := hrange'.2.1 last' hrange'.1 (Nat.le_refl last')
      obtain rfl := Nat.le_antisymm (hlast' last hlog.reaches) (hlast last' hlog'.reaches)
      obtain rfl := Nat.le_antisymm (hrange'.first_le hrange) (hrange.first_le hrange')
      rcases hhit with rfl | ⟨_, hle, _⟩
      · exact Nat.le_refl first
      · exact hle
    · intro hle
      refine ⟨first, last, hrange, hlast, ?_⟩
      cases hit with
      | logRange first' last' =>
        obtain ⟨rfl, rfl⟩ := hopens.eq_of_owes hends howes hle hreached
        exact .inl rfl
      | found block' offset kind => exact .inr ⟨trivial, hle, hlast _ howes.reaches⟩

/-! ## The whole scan -/

theorem step_of_unreadable {fault : Fault} (h : cursor.position < scan.limit)
    (hread : scan.image.read (cursor.position / scan.blockSize * scan.blockSize) scan.blockSize =
      .error fault) : scan.step cursor = .failed fault := by
  rw [step, if_neg (Nat.not_le.2 h)]
  dsimp only
  rw [hread]

/-- A scan that begins and comes to `block` has reported what is not lost there. -/
theorem Passes.lists {final : Cursor} {hits : List ScanHit}
    (h : scan.Passes block .first final hits) :
    Lists (fun hit => (scan.upTo block).Owes hit ∧ ¬ (scan.upTo block).Trailing hit) hits := by
  refine h.between.congr fun hit => and_congr_right fun howes => ?_
  rw [h.approaches.trailing_iff h.arrived howes, Nat.not_le, front_first]
  exact and_iff_right (Nat.zero_le _)

theorem exists_toList_upTo (hinside : block * scan.blockSize ≤ scan.limit)
    (hreadable : ∀ other < block, ¬ scan.Broken other) :
    ∃ hits, (scan.upTo block).toList = hits.map .ok ∧ Lists (scan.upTo block).Owes hits := by
  have hreadable' : ∀ other < block, ¬ (scan.upTo block).Broken other := by
    rintro other hlt ⟨⟨tested, ⟨hdvd, hlimit⟩, hother⟩, hsize⟩
    exact hreadable other hlt
      ⟨⟨tested, ⟨hdvd, Nat.lt_of_lt_of_le hlimit hinside⟩, hother⟩, hsize⟩
  have hfirst := (scan.upTo block).approaches_first block
  obtain ⟨hits, final, hpasses⟩ := hfirst.passes (Nat.le_refl _) hreadable' .first
  have honward := hpasses.between.append_onward
    (hpasses.approaches.standing.onward_release hpasses.arrived) hpasses.front_le
  refine ⟨hits ++ final.release, ?_, honward.lists⟩
  rw [toList, hpasses.items, itemsFrom, step_of_le hpasses.arrived, List.map_append]

/-- At the first block that cannot be read, a scan reports the fault and ends. -/
theorem Passes.items_eq {final : Cursor} {hits : List ScanHit} {fault : Fault}
    (h : scan.Passes block cursor final hits) (hreaches : scan.Reaches block)
    (hread : scan.image.read (block * scan.blockSize) scan.blockSize = .error fault) :
    scan.itemsFrom cursor = failingWith hits fault := by
  obtain ⟨tested, htests, hblock⟩ := hreaches
  have hle := h.approaches.not_past tested htests (Nat.le_of_eq hblock.symm)
  have hfinal : final.position / scan.blockSize = block := by
    refine Nat.le_antisymm ?_ ((Nat.le_div_iff_mul_le scan.blockSize_pos).2 h.arrived)
    rw [← hblock]
    exact Nat.div_le_div_right hle
  rw [← hfinal] at hread
  rw [h.items, itemsFrom, step_of_unreadable (Nat.lt_of_le_of_lt hle htests.2) hread]
  rfl

/-- How a scan ends that meets a block which is not inside the image. -/
structure BreaksAt (scan : Scan) (block : Nat) (complete hits : List ScanHit) (fault : Fault) :
    Prop where
  /-- The block has a tested position and is not inside the image; no earlier block is like that. -/
  broken : scan.Broken block
  first : ∀ other < block, ¬ scan.Broken other
  /-- Reading it is a failed access. -/
  fails : scan.image.read (block * scan.blockSize) scan.blockSize = .error fault
  isIo : fault.isIo = true
  /-- The shorter scan tests the positions in front of the block. -/
  tests_iff : ∀ position, (scan.upTo block).Tests position ↔
    scan.Tests position ∧ position / scan.blockSize < block
  /-- It fails nowhere and reports, in order, all that it owes. -/
  complete_eq : (scan.upTo block).toList = complete.map .ok
  complete_lists : Lists (scan.upTo block).Owes complete
  /-- Its last tested block has a log record exactly if a range ends there. -/
  range_iff : ∀ last, (∀ other, (scan.upTo block).Reaches other → other ≤ last) →
    ((scan.upTo block).HasLog last ↔ ∃ first, .logRange first last ∈ complete)
  /-- Of its reports, that range and the structures in the blocks of that range are lost, and the
  others stay in order. -/
  lists : Lists (fun hit => hit ∈ complete ∧ ¬ (scan.upTo block).Trailing hit) hits
  /-- The fault comes behind them and is the last item. -/
  items : scan.toList = failingWith hits fault
  /-- Items can be taken in any number, or called for one by one. -/
  take_eq : ∀ count, scan.take count = (failingWith hits fault).take count
  call_eq : ∀ count, scan.call count = (failingWith hits fault)[count]?
  /-- Every call after the fault answers nothing. -/
  silent : ∀ count, hits.length < count → scan.call count = none

/-- A scan breaks at the first block that is not inside. -/
theorem Broken.breaksAt (h : scan.Broken block) (hfirst : ∀ other < block, ¬ scan.Broken other) :
    ∃ complete hits fault, scan.BreaksAt block complete hits fault := by
  have hinside : block * scan.blockSize ≤ scan.limit := by
    obtain ⟨⟨tested, htests, rfl⟩, _⟩ := h
    exact Nat.le_trans (Nat.div_mul_le_self tested _) (Nat.le_of_lt htests.2)
  obtain ⟨fault, hread⟩ := Image.exists_read_eq_error scan.blockSize_pos h.2
  obtain ⟨complete, hcomplete, howes⟩ := exists_toList_upTo hinside hfirst
  obtain ⟨hits, final, hpasses⟩ :=
    (scan.approaches_first block).passes hinside hfirst .first
  have hitems : scan.toList = failingWith hits fault := hpasses.items_eq h.1 hread
  refine ⟨complete, hits, fault, {
    broken := h
    first := hfirst
    fails := hread
    isIo := Image.isIo_of_read hread
    tests_iff := fun _ => tests_upTo_iff h.1
    complete_eq := hcomplete
    complete_lists := howes
    range_iff := ?_
    lists := hpasses.lists.congr fun hit => and_congr_left' (howes.mem_iff hit).symm
    items := hitems
    take_eq := ?_
    call_eq := ?_
    silent := ?_ }⟩
  · intro last hlast
    constructor
    · intro hlog
      obtain ⟨first, hrange⟩ := hlog.exists_range (not_hasLog_succ hlast)
      exact ⟨first, (howes.mem_iff _).2 hrange⟩
    · rintro ⟨first, hmem⟩
      obtain ⟨hle, hlog, _⟩ := (howes.mem_iff _).1 hmem
      exact hlog last hle (Nat.le_refl last)
  · intro count
    rw [Scan.take_eq, hitems]
  · intro count
    rw [Scan.call_eq, hitems]
  · intro count hlt
    rw [Scan.call_eq, hitems, failingWith, List.getElem?_eq_none_iff, List.length_append,
      List.length_map]
    exact hlt

/-- A scan with a tested block that is not inside the image reports what a scan of the positions in
front of that block does, but for a range of log blocks at the end and what lies in it; then the
fault of the read, and then nothing. -/
theorem ofBlocks_breaks (image : Image) (blockSize total stride : Nat)
    (h : ∃ block, (ofBlocks image blockSize total stride).Broken block) :
    ∃ block complete hits fault,
      (ofBlocks image blockSize total stride).BreaksAt block complete hits fault := by
  classical
  exact ⟨Nat.find h, (Nat.find_spec h).breaksAt fun _ => Nat.find_min h⟩

/-- The log device, cut off inside its fourth block. -/
def cutLogDevice : Image :=
  { logDevice with size := 28, size_le := by decide }

theorem cutLogDevice_breaks :
    (∃ block, (ofBlocks cutLogDevice 8 5 4).Broken block) ∧
      (ofBlocks cutLogDevice 8 5 4).BreaksAt 3
        [.found 0 0 .superblock, .logRange 1 2, .found 1 4 .agf] [.found 0 0 .superblock]
        .shortRead := by
  have hbroken : (ofBlocks cutLogDevice 8 5 4).Broken 3 :=
    ⟨⟨24, ⟨by decide, by decide⟩, by decide⟩, by decide⟩
  refine ⟨⟨3, hbroken⟩, ?_⟩
  obtain ⟨block, complete, hits, fault, hbreaks⟩ :=
    ofBlocks_breaks cutLogDevice 8 5 4 ⟨3, hbroken⟩
  obtain rfl : block = 3 := by
    have hsize : 28 < block * 8 + 8 := hbreaks.broken.2
    have hle : ¬ 3 < block := fun hlt => hbreaks.first 3 hlt hbroken
    omega
  have hlist : ((ofBlocks cutLogDevice 8 5 4).upTo 3).toList =
      [ScanHit.found 0 0 .superblock, .logRange 1 2, .found 1 4 .agf].map .ok := by
    decide +kernel
  have hitems : (ofBlocks cutLogDevice 8 5 4).toList =
      failingWith [.found 0 0 .superblock] .shortRead := by
    decide +kernel
  obtain rfl := map_ok_inj (hbreaks.complete_eq.symm.trans hlist)
  obtain ⟨rfl, rfl⟩ := failingWith_inj (hbreaks.items.symm.trans hitems)
  exact hbreaks

end DiskScope.Xfs.Scan
