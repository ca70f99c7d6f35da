/-
  DiskScope/Proofs/Xfs/ScanBlock.lean --- what a scan owes, and what it finds in one block.

  WHAT THIS FILE IS FOR.  What a scan should report can be said without any order of
  visits: which positions are tested, what stands at each, and which reports that makes.
  `Owes` says so of one report, and `Lists` of a whole list in order.  This file then shows
  of one block that probing it finds what stands at its tested positions, and that the
  position after it is the next to test.

  ORDER.  Reports are ordered by block.  A range counts as its first block and comes
  in front of the structures of that block, which are in order of their offsets.

  MAIN STATEMENTS.

      lists_hitsOf            the hits of a block, without its log records, are those owed
      hasLogRecord_iff        a log record is found exactly in blocks that have one
      le_of_lt_positionAfter  no tested position after the block is skipped
-/
import DiskScope.Xfs.Scan
import Mathlib.Data.Nat.Basic

set_option autoImplicit false

namespace DiskScope

theorem Image.drop_bytesFrom (image : Image) (offset len n : Nat) :
    (image.bytesFrom offset len).drop n = image.bytesFrom (offset + n) (len - n) := by
  rcases Nat.le_total n len with hle | hle
  · obtain ⟨rest, rfl⟩ := Nat.exists_eq_add_of_le hle
    rw [bytesFrom_add, List.drop_append_of_le_length (by rw [length_bytesFrom]),
      List.drop_of_length_le (by rw [length_bytesFrom]), List.nil_append, Nat.add_sub_cancel_left]
  · rw [Nat.sub_eq_zero_of_le hle, List.drop_of_length_le (by rw [length_bytesFrom]; exact hle)]
    rfl

namespace Xfs

/-! ## Reports in order -/

namespace ScanHit

/-- The block of a report; of a range, the first one. -/
def block : ScanHit → Nat
  | found block _ _ => block
  | logRange first _ => first

/-- The place of a report among those of its block. -/
def place : ScanHit → Nat
  | found _ offset _ => offset + 1
  | logRange _ _ => 0

/-- Whether a report is about one structure. -/
def IsFound : ScanHit → Prop
  | found _ _ _ => True
  | logRange _ _ => False

/-- The order of reports. -/
def Before (hit other : ScanHit) : Prop :=
  hit.block < other.block ∨ hit.block = other.block ∧ hit.place < other.place

/-- The list has, in order, the reports with property `p` and no others. -/
structure Lists (p : ScanHit → Prop) (hits : List ScanHit) : Prop where
  sorted : hits.Pairwise Before
  mem_iff : ∀ hit, hit ∈ hits ↔ p hit

variable {p q : ScanHit → Prop} {hits more : List ScanHit}

theorem Lists.nodup (h : Lists p hits) : hits.Nodup := by
  refine h.sorted.imp ?_
  intro hit other hbefore heq
  rw [heq] at hbefore
  unfold Before at hbefore
  omega

theorem Lists.congr (h : Lists p hits) (heq : ∀ hit, p hit ↔ q hit) : Lists q hits :=
  ⟨h.sorted, fun hit => (h.mem_iff hit).trans (heq hit)⟩

theorem lists_nil (h : ∀ hit, ¬ p hit) : Lists p [] := by
  refine ⟨.nil, ?_⟩
  intro hit
  simp only [List.not_mem_nil, h hit]

/-- Two lists in a row, of the reports before block `mid` and of those from it on. -/
theorem Lists.join (mid : Nat) (h : Lists (fun hit => p hit ∧ hit.block < mid) hits)
    (hmore : Lists (fun hit => p hit ∧ mid ≤ hit.block) more) : Lists p (hits ++ more) := by
  refine ⟨List.pairwise_append.2 ⟨h.sorted, hmore.sorted, ?_⟩, ?_⟩
  · intro hit hmem other hmem'
    have hlt := ((h.mem_iff hit).1 hmem).2
    have hle := ((hmore.mem_iff other).1 hmem').2
    exact .inl (Nat.lt_of_lt_of_le hlt hle)
  · intro hit
    rw [List.mem_append, h.mem_iff, hmore.mem_iff, ← and_or_left]
    exact and_iff_left (Nat.lt_or_ge hit.block mid)

theorem Lists.cons {first : ScanHit} (h : Lists p hits)
    (hbefore : ∀ hit, p hit → Before first hit) :
    Lists (fun hit => hit = first ∨ p hit) (first :: hits) := by
  refine ⟨List.pairwise_cons.2 ⟨?_, h.sorted⟩, ?_⟩
  · intro hit hmem
    exact hbefore hit ((h.mem_iff hit).1 hmem)
  · intro hit
    rw [List.mem_cons, h.mem_iff]

end ScanHit

namespace Scan

/-! ## What is owed -/

/-- The positions that are tested: the multiples of the stride below the end. -/
def Tests (scan : Scan) (position : Nat) : Prop :=
  scan.stride ∣ position ∧ position < scan.limit

/-- The structure that the bytes from a position to the end of its block begin with. -/
def structureAt? (scan : Scan) (position : Nat) : Option Structure :=
  Structure.identify
    (scan.image.bytesFrom position (scan.blockSize - position % scan.blockSize))

/-- A log record stands at some tested position of the block. -/
def HasLog (scan : Scan) (block : Nat) : Prop :=
  ∃ position, scan.Tests position ∧ position / scan.blockSize = block ∧
    scan.structureAt? position = some .logRecord

/-- The reports that a scan owes: every structure at a tested position but log records, and every
range of blocks with log records that is as long as it can be. -/
def Owes (scan : Scan) : ScanHit → Prop
  | .found block offset kind =>
    ∃ position, scan.Tests position ∧ position / scan.blockSize = block ∧
      position % scan.blockSize = offset ∧ scan.structureAt? position = some kind ∧
      kind ≠ .logRecord
  | .logRange first last =>
    first ≤ last ∧ (∀ block, first ≤ block → block ≤ last → scan.HasLog block) ∧
      (∀ block, block + 1 = first → ¬ scan.HasLog block) ∧ ¬ scan.HasLog (last + 1)

/-- Some tested position lies in the block. -/
def Reaches (scan : Scan) (block : Nat) : Prop :=
  ∃ position, scan.Tests position ∧ position / scan.blockSize = block

variable {scan : Scan}

theorem HasLog.reaches {block : Nat} (h : scan.HasLog block) : scan.Reaches block := by
  obtain ⟨position, htests, hblock, _⟩ := h
  exact ⟨position, htests, hblock⟩

theorem Owes.reaches {hit : ScanHit} (h : scan.Owes hit) : scan.Reaches hit.block := by
  cases hit with
  | found block offset kind =>
    obtain ⟨position, htests, hblock, _⟩ := h
    exact ⟨position, htests, hblock⟩
  | logRange first last =>
    obtain ⟨hle, hlog, _⟩ := h
    exact (hlog first (Nat.le_refl first) hle).reaches

/-! ## Probing -/

theorem mem_probe {stride : Nat} {hpos : 0 < stride} {offset : Nat} {rest : Bytes}
    {hit : Nat × Structure} :
    hit ∈ probe stride hpos offset rest ↔
      ∃ k, k * stride < rest.length ∧ hit.1 = offset + k * stride ∧
        Structure.identify (rest.drop (k * stride)) = some hit.2 := by
  fun_induction probe stride hpos offset rest with
  | case1 offset =>
    constructor
    · intro hmem
      cases hmem
    · rintro ⟨k, hlt, _⟩
      cases hlt
  | case2 offset b bs ih =>
    rw [List.mem_append, ih, Option.mem_toList, Option.map_eq_some_iff]
    constructor
    · rintro (⟨kind, hkind, rfl⟩ | ⟨k, hlt, hoffset, hkind⟩)
      · refine ⟨0, ?_, ?_, ?_⟩
        · rw [Nat.zero_mul]
          exact Nat.succ_pos _
        · rw [Nat.zero_mul, Nat.add_zero]
        · rw [Nat.zero_mul]
          exact hkind
      · rw [List.length_drop] at hlt
        rw [List.drop_drop] at hkind
        refine ⟨k + 1, ?_, ?_, ?_⟩
        · rw [Nat.succ_mul]
          omega
        · rw [Nat.succ_mul]
          omega
        · rw [Nat.succ_mul, Nat.add_comm]
          exact hkind
    · rintro ⟨k, hlt, hoffset, hkind⟩
      cases k with
      | zero =>
        rw [Nat.zero_mul] at hoffset hkind
        exact .inl ⟨hit.2, hkind, by rw [← Nat.add_zero offset, ← hoffset]⟩
      | succ k =>
        rw [Nat.succ_mul] at hlt hoffset hkind
        refine .inr ⟨k, ?_, ?_, ?_⟩
        · rw [List.length_drop]
          omega
        · omega
        · rw [List.drop_drop, Nat.add_comm]
          exact hkind

theorem sorted_probe (stride : Nat) (hpos : 0 < stride) (offset : Nat) (rest : Bytes) :
    (probe stride hpos offset rest).Pairwise fun hit other => hit.1 < other.1 := by
  fun_induction probe stride hpos offset rest with
  | case1 offset => exact .nil
  | case2 offset b bs ih =>
    refine List.pairwise_append.2 ⟨?_, ih, ?_⟩
    · cases Structure.identify (b :: bs) with
      | none => exact .nil
      | some kind => exact List.pairwise_singleton _ _
    · intro hit hmem other hmem'
      rw [Option.mem_toList, Option.map_eq_some_iff] at hmem
      obtain ⟨kind, _, rfl⟩ := hmem
      obtain ⟨k, _, hoffset, _⟩ := mem_probe.1 hmem'
      dsimp only
      omega

/-! ## Positions -/

/-- The positions of a block are those with its number. -/
theorem div_eq_iff_of_le {size position tested : Nat} (hpos : 0 < size) (hle : position ≤ tested) :
    tested / size = position / size ↔ tested < position + (size - position % size) := by
  have hdiv := Nat.div_add_mod position size
  have hmod := Nat.mod_lt position hpos
  rw [Nat.div_eq_iff hpos]
  rw [Nat.mul_comm] at hdiv
  constructor
  · rintro ⟨_, hlt⟩
    omega
  · intro hlt
    constructor <;> omega

theorem dvd_positionAfter {position : Nat} (h : scan.stride ∣ position) :
    scan.stride ∣ scan.positionAfter position :=
  Nat.dvd_add h (Nat.dvd_mul_left _ _)

/-- A stride is never more than it takes to leave the block. -/
theorem positionAfter_bounds (scan : Scan) (position : Nat) :
    position + (scan.blockSize - position % scan.blockSize) ≤ scan.positionAfter position ∧
      scan.positionAfter position <
        position + (scan.blockSize - position % scan.blockSize) + scan.stride := by
  unfold positionAfter
  dsimp only
  generalize scan.blockSize - position % scan.blockSize = left
  have hdiv := Nat.div_add_mod (left + scan.stride - 1) scan.stride
  have hmod := Nat.mod_lt (left + scan.stride - 1) scan.stride_pos
  rw [Nat.mul_comm] at hdiv
  have hstride := scan.stride_pos
  constructor <;> omega

theorem div_lt_div_positionAfter (scan : Scan) (position : Nat) :
    position / scan.blockSize < scan.positionAfter position / scan.blockSize := by
  have hafter := (scan.positionAfter_bounds position).1
  have hle : position ≤ scan.positionAfter position := by omega
  refine Nat.lt_of_le_of_ne (Nat.div_le_div_right hle) ?_
  intro heq
  have := (div_eq_iff_of_le scan.blockSize_pos hle).1 heq.symm
  omega

/-- No tested position after the block of `position` is skipped. -/
theorem le_of_lt_positionAfter {position tested : Nat} (hposition : scan.stride ∣ position)
    (htested : scan.stride ∣ tested) (hlt : tested < scan.positionAfter position) :
    tested / scan.blockSize ≤ position / scan.blockSize := by
  have hgap := Nat.le_of_dvd (Nat.sub_pos_of_lt hlt)
    (Nat.dvd_sub (dvd_positionAfter hposition) htested)
  have hafter := (scan.positionAfter_bounds position).2
  rcases Nat.le_total position tested with hle | hle
  · exact Nat.le_of_eq ((div_eq_iff_of_le scan.blockSize_pos hle).2 (by omega))
  · exact Nat.div_le_div_right hle

/-- The position is the first that is tested in its block. -/
structure Leads (scan : Scan) (position : Nat) : Prop where
  dvd : scan.stride ∣ position
  le_of_tests : ∀ tested, scan.Tests tested →
    tested / scan.blockSize = position / scan.blockSize → position ≤ tested

theorem leads_zero (scan : Scan) : scan.Leads 0 :=
  ⟨Nat.dvd_zero _, fun tested _ _ => Nat.zero_le tested⟩

theorem Leads.positionAfter {position : Nat} (h : scan.Leads position) :
    scan.Leads (scan.positionAfter position) := by
  refine ⟨dvd_positionAfter h.dvd, ?_⟩
  intro tested htests hblock
  by_contra hlt
  have hle := le_of_lt_positionAfter h.dvd htests.1 (Nat.lt_of_not_le hlt)
  have := scan.div_lt_div_positionAfter position
  omega

/-- Between the block of a position and that of the next one, none is tested. -/
theorem Leads.le_or_le_of_reaches {position block : Nat} (h : scan.Leads position)
    (hblock : scan.Reaches block) : block ≤ position / scan.blockSize ∨
      scan.positionAfter position / scan.blockSize ≤ block := by
  obtain ⟨tested, htests, rfl⟩ := hblock
  rcases Nat.lt_or_ge tested (scan.positionAfter position) with hlt | hge
  · exact .inl (le_of_lt_positionAfter h.dvd htests.1 hlt)
  · exact .inr (Nat.div_le_div_right hge)

/-- The end falls between two blocks, so a block is scanned as a whole or not at all. -/
theorem lt_limit_iff {position : Nat} (hwhole : scan.blockSize ∣ scan.limit) :
    position < scan.limit ↔
      position / scan.blockSize * scan.blockSize + scan.blockSize ≤ scan.limit := by
  obtain ⟨total, htotal⟩ := hwhole
  rw [htotal, Nat.mul_comm scan.blockSize total, ← Nat.succ_mul,
    Nat.mul_le_mul_right_iff scan.blockSize_pos, Nat.succ_le_iff,
    Nat.div_lt_iff_lt_mul scan.blockSize_pos]

/-! ## One block -/

/-- What probing finds from a position to the end of its block. -/
def foundFrom (scan : Scan) (position : Nat) : List (Nat × Structure) :=
  probe scan.stride scan.stride_pos (position % scan.blockSize)
    (scan.image.bytesFrom position (scan.blockSize - position % scan.blockSize))

/-- What probing finds, without log records, as reports. -/
def hitsOf (scan : Scan) (position : Nat) : List ScanHit :=
  ((scan.foundFrom position).filter fun hit => hit.2 != .logRecord).map fun hit =>
    .found (position / scan.blockSize) hit.1 hit.2

/-- Whether probing finds a log record. -/
def hasLogRecord (scan : Scan) (position : Nat) : Bool :=
  (scan.foundFrom position).any fun hit => hit.2 == .logRecord

/-- The positions behind the first one of a block whose number is its own. -/
theorem mem_foundFrom {position : Nat} {hit : Nat × Structure} :
    hit ∈ scan.foundFrom position ↔
      ∃ k, (position + k * scan.stride) / scan.blockSize = position / scan.blockSize ∧
        (position + k * scan.stride) % scan.blockSize = hit.1 ∧
        scan.structureAt? (position + k * scan.stride) = some hit.2 := by
  rw [foundFrom, mem_probe]
  refine exists_congr fun k => ?_
  rw [Image.length_bytesFrom, Image.drop_bytesFrom,
    div_eq_iff_of_le scan.blockSize_pos (Nat.le_add_right _ _), Nat.add_lt_add_iff_left]
  refine and_congr_right fun hlt => ?_
  have hmod : (position + k * scan.stride) % scan.blockSize =
      position % scan.blockSize + k * scan.stride := by
    have hdiv := (div_eq_iff_of_le scan.blockSize_pos (Nat.le_add_right position _)).2
      (Nat.add_lt_add_left hlt position)
    have hdm := Nat.div_add_mod position scan.blockSize
    have hdm' := Nat.div_add_mod (position + k * scan.stride) scan.blockSize
    rw [hdiv] at hdm'
    omega
  rw [structureAt?, hmod, eq_comm, Nat.sub_sub]

/-- From the first tested position of a block, all that stands at tested positions is found. -/
theorem Leads.mem_foundFrom_iff {position : Nat} {hit : Nat × Structure} (h : scan.Leads position)
    (hwhole : scan.blockSize ∣ scan.limit) (hlt : position < scan.limit) :
    hit ∈ scan.foundFrom position ↔
      ∃ tested, scan.Tests tested ∧ tested / scan.blockSize = position / scan.blockSize ∧
        tested % scan.blockSize = hit.1 ∧ scan.structureAt? tested = some hit.2 := by
  rw [mem_foundFrom]
  constructor
  · rintro ⟨k, hblock, hoffset, hkind⟩
    refine ⟨_, ⟨Nat.dvd_add h.dvd (Nat.dvd_mul_left _ _), ?_⟩, hblock, hoffset, hkind⟩
    rw [lt_limit_iff hwhole, hblock]
    exact (lt_limit_iff hwhole).1 hlt
  · rintro ⟨tested, htests, hblock, hoffset, hkind⟩
    have hle := h.le_of_tests tested htests hblock
    obtain ⟨k, hk⟩ := Nat.dvd_sub htests.1 h.dvd
    have htested : position + k * scan.stride = tested := by
      rw [Nat.mul_comm, ← hk, Nat.add_sub_cancel' hle]
    rw [← htested] at hblock hoffset hkind
    exact ⟨k, hblock, hoffset, hkind⟩

theorem Leads.hasLogRecord_iff {position : Nat} (h : scan.Leads position)
    (hwhole : scan.blockSize ∣ scan.limit) (hlt : position < scan.limit) :
    scan.hasLogRecord position = true ↔ scan.HasLog (position / scan.blockSize) := by
  rw [hasLogRecord, List.any_eq_true]
  constructor
  · rintro ⟨hit, hmem, hlog⟩
    obtain ⟨tested, htests, hblock, _, hkind⟩ := (h.mem_foundFrom_iff hwhole hlt).1 hmem
    rw [eq_of_beq hlog] at hkind
    exact ⟨tested, htests, hblock, hkind⟩
  · rintro ⟨tested, htests, hblock, hkind⟩
    exact ⟨(tested % scan.blockSize, .logRecord),
      (h.mem_foundFrom_iff hwhole hlt).2 ⟨tested, htests, hblock, rfl, hkind⟩, rfl⟩

theorem Leads.lists_hitsOf {position : Nat} (h : scan.Leads position)
    (hwhole : scan.blockSize ∣ scan.limit) (hlt : position < scan.limit) :
    ScanHit.Lists
      (fun hit => scan.Owes hit ∧ hit.IsFound ∧ hit.block = position / scan.blockSize)
      (scan.hitsOf position) := by
  refine ⟨?_, ?_⟩
  · refine List.Pairwise.map _ ?_ ((sorted_probe _ _ _ _).filter _)
    intro hit other hoffset
    exact .inr ⟨rfl, Nat.succ_lt_succ hoffset⟩
  · intro hit
    rw [hitsOf, List.mem_map]
    constructor
    · rintro ⟨found, hmem, rfl⟩
      rw [List.mem_filter] at hmem
      obtain ⟨tested, htests, hblock, hoffset, hkind⟩ :=
        (h.mem_foundFrom_iff hwhole hlt).1 hmem.1
      exact ⟨⟨tested, htests, hblock, hoffset, hkind, bne_iff_ne.1 hmem.2⟩, trivial, rfl⟩
    · rintro ⟨howes, hfound, hblock⟩
      cases hit with
      | logRange first last => cases hfound
      | found block offset kind =>
        obtain ⟨tested, htests, hblock', hoffset, hkind, hne⟩ := howes
        obtain rfl : block = position / scan.blockSize := hblock
        refine ⟨(offset, kind), List.mem_filter.2 ⟨?_, bne_iff_ne.2 hne⟩, rfl⟩
        exact (h.mem_foundFrom_iff hwhole hlt).2 ⟨tested, htests, hblock', hoffset, hkind⟩

end Scan

end Xfs

end DiskScope
