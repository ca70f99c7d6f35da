/-
  DiskScope/Proofs/Xfs/InodeAddress.lean --- an inode number is a place, and only one.

  WHAT THIS FILE IS FOR.  The number of an inode is made of three: its group, its block within
  the group, and its slot within the block.  Finding the inode takes the number apart again
  and counts the blocks of the groups in front, which are not a power of two.  A `Place` is
  such a triple; `Place.number` puts it together, and `locate` has to lead to it.  Were it
  off by a slot, another inode would be read, and the early versions could not tell.

  WORDS.  Numbers here have no bound, those of a processor have 64 bits.  `locateInWords?` is
  the same computation with shifts and masks, which gives up as soon as a number does not
  fit in a word; that it never does is part of the statement.

  MAIN STATEMENTS.

      addressed_of_groupBits    places are found, are apart and lie in their blocks
      locateInWords?_eq         no number on the way needs more than 64 bits
      fetched                   what is read at a place, and when nothing is
      inodes_addressed          all of it
-/
import DiskScope.Proofs.Xfs.DirectoryCodec
import DiskScope.Proofs.Xfs.InodeVerdict
import Mathlib.Algebra.GroupWithZero.Nat

set_option autoImplicit false

namespace DiskScope

/-- A number, if it fits in a 64-bit word. -/
def word? (n : Nat) : Option Nat := if n < 2 ^ 64 then some n else none

theorem word?_of_lt {n : Nat} (h : n < 2 ^ 64) : word? n = some n := if_pos h

namespace Xfs.Inode

variable {sb : Superblock}

/-! ## Places -/

/-- Block numbers carry the group: some of their bits are for it, and those below have room for
every block of a group. -/
def GroupBits (sb : Superblock) : Prop :=
  1 ≤ sb.agBlockLog ∧ sb.agBlockLog < 64 ∧ sb.agBlocks ≤ 2 ^ sb.agBlockLog

instance (sb : Superblock) : Decidable (GroupBits sb) := inferInstanceAs (Decidable (_ ∧ _ ∧ _))

/-- A slot of a block of a group. -/
structure Place (sb : Superblock) where
  agno : Nat
  /-- Counted from the start of the group. -/
  agBlock : Nat
  slot : Nat
  agBlock_lt : agBlock < sb.agBlocks
  slot_lt : slot < perBlock sb

namespace Place

/-- The number of the inode in a place. -/
def number (place : Place sb) : Nat :=
  ((place.agno <<< sb.agBlockLog) + place.agBlock) * perBlock sb + place.slot

/-- Where a place lies. -/
def location (place : Place sb) : Location :=
  { block := sb.groupBlock place.agno + place.agBlock
    offset := place.slot * sb.inodeSize }

end Place

/-- The byte of the image at which a location begins. -/
def Location.start (place : Location) (sb : Superblock) : Nat :=
  place.block * sb.blockSize + place.offset

/-! ## Taking numbers apart -/

/-- Two digits are read off the number that they make. -/
theorem digits_of_pair (high : Nat) {low base : Nat} (h : low < base) :
    (high * base + low) / base = high ∧ (high * base + low) % base = low := by
  have hbase : 0 < base := by omega
  constructor
  · rw [Nat.add_comm, Nat.add_mul_div_right _ _ hbase, Nat.div_eq_of_lt h, Nat.zero_add]
  · rw [Nat.add_comm, Nat.add_mul_mod_self_right, Nat.mod_eq_of_lt h]

theorem pair_inj {high low high' low' base : Nat} (h : low < base) (h' : low' < base)
    (heq : high * base + low = high' * base + low') : high = high' ∧ low = low' := by
  obtain ⟨hhigh, hlow⟩ := digits_of_pair high h
  obtain ⟨hhigh', hlow'⟩ := digits_of_pair high' h'
  exact ⟨by rw [← hhigh, heq, hhigh'], by rw [← hlow, heq, hlow']⟩

theorem hasGroupBits_iff : hasGroupBits sb = true ↔ GroupBits sb := by
  simp only [hasGroupBits, GroupBits, Bool.and_eq_true, bne_iff_ne, decide_eq_true_eq,
    Nat.one_shiftLeft, and_assoc, Nat.one_le_iff_ne_zero]

theorem linearBlock_of_groupBits (h : GroupBits sb) (number : Nat) :
    linearBlock sb number =
      number / 2 ^ sb.agBlockLog * sb.agBlocks + number % 2 ^ sb.agBlockLog := by
  rw [linearBlock, if_pos (hasGroupBits_iff.2 h), Nat.one_shiftLeft]

theorem linearBlock_of_not_groupBits (h : ¬ GroupBits sb) (number : Nat) :
    linearBlock sb number = number :=
  if_neg (mt hasGroupBits_iff.1 h)

/-- The blocks of a group are no more than its bits have room for, so counting them in a row makes
no number greater. -/
theorem linearBlock_le (sb : Superblock) (number : Nat) : linearBlock sb number ≤ number := by
  by_cases h : GroupBits sb
  · rw [linearBlock_of_groupBits h]
    calc number / 2 ^ sb.agBlockLog * sb.agBlocks + number % 2 ^ sb.agBlockLog
        ≤ number / 2 ^ sb.agBlockLog * 2 ^ sb.agBlockLog + number % 2 ^ sb.agBlockLog :=
          Nat.add_le_add_right (Nat.mul_le_mul_left _ h.2.2) _
      _ = number := Nat.div_add_mod' _ _
  · exact Nat.le_of_eq (linearBlock_of_not_groupBits h number)

theorem locate_number (h : GroupBits sb) (place : Place sb) :
    locate sb place.number = place.location := by
  obtain ⟨hnumber, hslot⟩ :=
    digits_of_pair ((place.agno <<< sb.agBlockLog) + place.agBlock) place.slot_lt
  have hroom : place.agBlock < 2 ^ sb.agBlockLog := Nat.lt_of_lt_of_le place.agBlock_lt h.2.2
  obtain ⟨hagno, hagBlock⟩ := digits_of_pair place.agno hroom
  rw [locate, Place.number, hnumber, hslot, linearBlock_of_groupBits h, Nat.shiftLeft_eq, hagno,
    hagBlock]
  rfl

theorem location_inj (hsize : 1 ≤ sb.inodeSize) {place other : Place sb}
    (h : place.location = other.location) : place = other := by
  obtain ⟨hblock, hoffset⟩ := Location.mk.inj h
  obtain ⟨hagno, hagBlock⟩ := pair_inj place.agBlock_lt other.agBlock_lt hblock
  have hslot : place.slot = other.slot := Nat.eq_of_mul_eq_mul_right hsize hoffset
  cases place
  cases other
  simp_all

/-! ## Bytes -/

theorem mul_add_le_mul {i j : Nat} (h : i < j) (size : Nat) : i * size + size ≤ j * size :=
  Nat.succ_mul i size ▸ Nat.mul_le_mul_right size h

theorem Place.offset_le (hfits : perBlock sb * sb.inodeSize ≤ sb.blockSize) (place : Place sb) :
    place.location.offset + sb.inodeSize ≤ sb.blockSize :=
  calc place.slot * sb.inodeSize + sb.inodeSize
      ≤ perBlock sb * sb.inodeSize := mul_add_le_mul place.slot_lt sb.inodeSize
    _ ≤ sb.blockSize := hfits

/-- Inodes in different places have no byte in common. -/
theorem Place.apart (hfits : perBlock sb * sb.inodeSize ≤ sb.blockSize) {place other : Place sb}
    (hne : place.location ≠ other.location) :
    place.location.start sb + sb.inodeSize ≤ other.location.start sb ∨
      other.location.start sb + sb.inodeSize ≤ place.location.start sb := by
  have hin := place.offset_le hfits
  have hin' := other.offset_le hfits
  unfold Location.start
  rcases Nat.lt_trichotomy place.location.block other.location.block with hlt | heq | hgt
  · have := mul_add_le_mul hlt sb.blockSize
    omega
  · -- In one block the slots are different.
    have hslot : place.slot ≠ other.slot := fun hslot =>
      hne ((Location.mk.injEq _ _ _ _).mpr ⟨heq, congrArg (· * sb.inodeSize) hslot⟩)
    rw [heq]
    rcases Nat.lt_or_gt_of_ne hslot with hlt | hgt
    · have : place.location.offset + sb.inodeSize ≤ other.location.offset :=
        mul_add_le_mul hlt sb.inodeSize
      omega
    · have : other.location.offset + sb.inodeSize ≤ place.location.offset :=
        mul_add_le_mul hgt sb.inodeSize
      omega
  · have := mul_add_le_mul hgt sb.blockSize
    omega

/-- What holds of the places of a filesystem whose block numbers carry the group. -/
structure Addressed (sb : Superblock) : Prop where
  /-- Every inode is looked for in its place. -/
  found : ∀ place : Place sb, locate sb place.number = place.location
  /-- That lies inside the group. -/
  in_group : ∀ place : Place sb,
    sb.groupBlock place.agno ≤ (locate sb place.number).block ∧
      (locate sb place.number).block < sb.groupBlock (place.agno + 1)
  injective : ∀ place other : Place sb,
    locate sb place.number = locate sb other.number → place = other
  /-- If the inodes of a block fit in it, the bytes of each lie inside. -/
  in_block : perBlock sb * sb.inodeSize ≤ sb.blockSize → ∀ place : Place sb,
    (locate sb place.number).block * sb.blockSize ≤ (locate sb place.number).start sb ∧
      (locate sb place.number).start sb + sb.inodeSize ≤
        ((locate sb place.number).block + 1) * sb.blockSize
  /-- And no two have a byte in common. -/
  apart : perBlock sb * sb.inodeSize ≤ sb.blockSize → ∀ place other : Place sb,
    place.number ≠ other.number →
      (locate sb place.number).start sb + sb.inodeSize ≤ (locate sb other.number).start sb ∨
        (locate sb other.number).start sb + sb.inodeSize ≤ (locate sb place.number).start sb

theorem addressed_of_groupBits (hsize : 1 ≤ sb.inodeSize) (h : GroupBits sb) : Addressed sb where
  found := locate_number h
  in_group := by
    intro place
    have hlt := place.agBlock_lt
    simp only [locate_number h, Place.location, Superblock.groupBlock, Nat.succ_mul]
    omega
  injective := by
    intro place other heq
    rw [locate_number h, locate_number h] at heq
    exact location_inj hsize heq
  in_block := by
    intro hfits place
    have hin := place.offset_le hfits
    rw [locate_number h, Location.start, Nat.succ_mul]
    omega
  apart := by
    intro hfits place other hne
    rw [locate_number h, locate_number h]
    exact Place.apart hfits fun heq => hne (congrArg Place.number (location_inj hsize heq))

/-! ## Words -/

/-- The block with a number whose high bits may be a group, found by shifting and masking words. -/
def linearBlockInWords? (sb : Superblock) (number : Nat) : Option Nat :=
  if sb.agBlockLog = 0 ∨ 64 ≤ sb.agBlockLog then some number
  else do
    let room ← word? (1 <<< sb.agBlockLog)
    if room < sb.agBlocks then some number
    else do
      let first ← word? ((number >>> sb.agBlockLog) * sb.agBlocks)
      word? (first + (number &&& (room - 1)))

/-- Where the inode `ino` lies, if no number on the way needs more than 64 bits. -/
def locateInWords? (sb : Superblock) (ino : Nat) : Option Location := do
  let perBlock ← word? (max sb.inodesPerBlock 1)
  let number ← word? (ino / perBlock)
  let offset ← word? (ino % perBlock * sb.inodeSize)
  let block ← linearBlockInWords? sb number
  pure ⟨block, offset⟩

theorem linearBlockInWords?_eq {number : Nat} (hnumber : number < 2 ^ 64) :
    linearBlockInWords? sb number = some (linearBlock sb number) := by
  unfold linearBlockInWords?
  split
  · rename_i hlog
    rw [linearBlock_of_not_groupBits (by unfold GroupBits; omega)]
  · rename_i hlog
    have hroom : 2 ^ sb.agBlockLog < 2 ^ 64 := Nat.pow_lt_pow_right (by decide) (by omega)
    rw [Nat.one_shiftLeft, word?_of_lt hroom, Option.bind_eq_bind, Option.bind_some]
    split
    · rw [linearBlock_of_not_groupBits (by unfold GroupBits; omega)]
    · have hbits : GroupBits sb := by unfold GroupBits; omega
      have hle := Nat.lt_of_le_of_lt (linearBlock_le sb number) hnumber
      rw [linearBlock_of_groupBits hbits] at hle ⊢
      rw [Nat.shiftRight_eq_div_pow, Nat.and_two_pow_sub_one_eq_mod, word?_of_lt (by omega),
        Option.bind_some, word?_of_lt hle]

/-- A superblock whose sizes have 16 bits, as on disk, needs no longer words for any inode. -/
theorem locateInWords?_eq {ino : Nat} (hino : ino < 2 ^ 64) (hper : sb.inodesPerBlock < 2 ^ 16)
    (hsize : sb.inodeSize < 2 ^ 16) : locateInWords? sb ino = some (locate sb ino) := by
  have hperPos : 0 < perBlock sb := Nat.lt_of_lt_of_le Nat.zero_lt_one (Nat.le_max_right _ _)
  have hperLe : perBlock sb ≤ 2 ^ 16 := Nat.max_le.2 ⟨Nat.le_of_lt hper, by decide⟩
  have hnumber : ino / perBlock sb < 2 ^ 64 := Nat.lt_of_le_of_lt (Nat.div_le_self _ _) hino
  have hslot : ino % perBlock sb ≤ 2 ^ 16 :=
    Nat.le_trans (Nat.le_of_lt (Nat.mod_lt _ hperPos)) hperLe
  have hoffset : ino % perBlock sb * sb.inodeSize < 2 ^ 64 :=
    Nat.lt_of_le_of_lt (Nat.mul_le_mul hslot (Nat.le_of_lt hsize)) (by decide)
  rw [locateInWords?, ← perBlock, word?_of_lt (Nat.lt_of_le_of_lt hperLe (by decide))]
  simp only [Option.bind_eq_bind, Option.bind_some, word?_of_lt hnumber, word?_of_lt hoffset,
    linearBlockInWords?_eq hnumber]
  rfl

/-! ## Reading -/

/-- A fault of a data fork is that it is cut off. -/
theorem ForkVerdict.truncated {fork : Bytes} {fileType : Unix.FileType} {extentCount size : Nat}
    {hasType : Bool} {format : ForkFormat} {fault : Fault}
    (h : ForkVerdict fork fileType extentCount size hasType format (.error fault)) :
    ∃ part needed, fault = .truncated part needed fork.length := by
  cases h with
  | extentsCut | treeCut | deviceCut => exact ⟨_, _, rfl⟩
  | directoryCut _ hdir =>
    obtain ⟨needed, -, hfault⟩ := InlineDirectory.cutOff_ofBytes fault hdir
    exact ⟨_, needed, hfault⟩

/-- Decoding never finds that a number is below the root directory's. -/
theorem ofBytes_ne_belowRootIno (data : Bytes) (ino : Nat) (hasType : Bool) (own root : Nat) :
    ofBytes data ino hasType ≠ .error (.belowRootIno own root) := by
  intro hfault
  have hverdict := verdict_ofBytes data ino hasType
  rw [hfault] at hverdict
  cases hverdict with
  | spoilt _ hfork =>
    obtain ⟨part, needed, hcut⟩ := hfork.truncated
    cases hcut

section fetch

variable {reader : BlockReader} {ino : Nat}

theorem outcome_fetch_of_lt (h : ino < sb.rootIno) :
    (fetch reader sb ino).outcome = .error (.belowRootIno ino sb.rootIno) := by
  rw [fetch, if_pos h]
  rfl

/-- From the root directory's on, an inode is read where a word has its place, and decoded. -/
theorem outcome_fetch_of_le (h : sb.rootIno ≤ ino) :
    (fetch reader sb ino).outcome =
      (reader.image.read (wrap ((locate sb ino).start sb)) sb.inodeSize >>= fun data =>
        ofBytes data ino sb.hasFileType) := by
  rw [fetch, if_neg (Nat.not_lt.2 h)]
  show ((reader.image.read (wrap ((locate sb ino).start sb)) sb.inodeSize : Traced Bytes) >>=
    _).outcome = _
  cases hread : reader.image.read (wrap ((locate sb ino).start sb)) sb.inodeSize with
  | error fault => rfl
  | ok data => rfl

/-- What becomes of reading the inode `ino`. -/
structure Fetched (reader : BlockReader) (sb : Superblock) (ino : Nat) : Prop where
  /-- It is refused, with these numbers, exactly if it lies below the root directory's. -/
  below_iff : ∀ own root, (fetch reader sb ino).outcome = .error (.belowRootIno own root) ↔
    ino < sb.rootIno ∧ own = ino ∧ root = sb.rootIno
  /-- Otherwise what is read where a word has its place is decoded. -/
  outcome_eq : sb.rootIno ≤ ino → (fetch reader sb ino).outcome =
    (reader.image.read (wrap ((locate sb ino).start sb)) sb.inodeSize >>= fun data =>
      ofBytes data ino sb.hasFileType)
  /-- That is the bytes of the image at its place, -/
  inside : sb.rootIno ≤ ino → (locate sb ino).start sb + sb.inodeSize ≤ reader.image.size →
    (fetch reader sb ino).outcome =
      ofBytes (reader.image.bytesFrom ((locate sb ino).start sb) sb.inodeSize) ino sb.hasFileType
  /-- unless they are not all there, as far as words go. -/
  outside : sb.rootIno ≤ ino → (locate sb ino).start sb < 2 ^ 64 →
    reader.image.size < (locate sb ino).start sb + sb.inodeSize →
      ∃ fault, fault.isIo = true ∧ (fetch reader sb ino).outcome = .error fault

theorem fetched (hsize : 1 ≤ sb.inodeSize) (reader : BlockReader) (ino : Nat) :
    Fetched reader sb ino where
  below_iff own root := by
    constructor
    · intro h
      rcases Nat.lt_or_ge ino sb.rootIno with hlt | hle
      · rw [outcome_fetch_of_lt hlt] at h
        obtain ⟨hown, hroot⟩ := Fault.belowRootIno.inj (Except.error.inj h)
        exact ⟨hlt, hown.symm, hroot.symm⟩
      · rw [outcome_fetch_of_le hle] at h
        cases hread : reader.image.read (wrap ((locate sb ino).start sb)) sb.inodeSize with
        | error fault =>
          rw [hread] at h
          obtain rfl := Except.error.inj h
          cases Image.isIo_of_read hread
        | ok data =>
          rw [hread] at h
          exact absurd h (ofBytes_ne_belowRootIno data ino _ own root)
    · rintro ⟨hlt, rfl, rfl⟩
      exact outcome_fetch_of_lt hlt
  outcome_eq := outcome_fetch_of_le
  inside hle hinside := by
    have himage := reader.image.size_lt
    have hread := Image.read_eq_ok_iff.2 ⟨.inl hinside, rfl⟩
    rw [outcome_fetch_of_le hle, wrap_of_lt (by omega), hread]
    rfl
  outside hle hword hoff := by
    rw [outcome_fetch_of_le hle, wrap_of_lt hword]
    obtain ⟨fault, hread⟩ := Image.exists_read_eq_error hsize hoff
    rw [hread]
    exact ⟨fault, Image.isIo_of_read hread, rfl⟩

end fetch

/-! ## All of it -/

/-- Where block numbers carry the group, the number of a place leads there and nowhere else; where
they do not, it is the number of the block.  No number on the way is greater than the inode's or
needs more than 64 bits; and what is read is what stands at the place. -/
theorem inodes_addressed (sb : Superblock) (hsize : 1 ≤ sb.inodeSize) :
    (GroupBits sb → Addressed sb) ∧
    (sb.agBlockLog = 0 ∨ 64 ≤ sb.agBlockLog ∨ 2 ^ sb.agBlockLog < sb.agBlocks →
      ∀ ino, locate sb ino = ⟨ino / perBlock sb, ino % perBlock sb * sb.inodeSize⟩) ∧
    (∀ ino, (locate sb ino).block ≤ ino / perBlock sb) ∧
    (sb.inodesPerBlock < 2 ^ 16 → sb.inodeSize < 2 ^ 16 → ∀ ino < 2 ^ 64,
      locateInWords? sb ino = some (locate sb ino)) ∧
    ∀ reader ino, Fetched reader sb ino := by
  refine ⟨addressed_of_groupBits hsize, ?_, ?_, ?_, fetched hsize⟩
  · intro hnone ino
    have hbits : ¬ GroupBits sb := by unfold GroupBits; omega
    rw [locate, linearBlock_of_not_groupBits hbits]
  · exact fun ino => linearBlock_le sb _
  · exact fun hper hwide ino hino => locateInWords?_eq hino hper hwide

/-- Groups of ten blocks, whose numbers have four bits for the block; eight inodes fill a block. -/
def tenBlockGroups : Superblock :=
  { (default : Superblock) with
    blockSize := 4096, agBlocks := 10, agBlockLog := 4, inodeSize := 512, inodesPerBlock := 8,
    rootIno := 64 }

/-- The fourth inode of the third block of the second group. -/
def inSecondGroup : Place tenBlockGroups := ⟨1, 2, 3, by decide, by decide⟩

/-- It has the number 147, begins 1536 bytes into block 12, and is not in an image of ten blocks. -/
theorem inSecondGroup_addressed :
    1 ≤ tenBlockGroups.inodeSize ∧ GroupBits tenBlockGroups ∧
      locate tenBlockGroups inSecondGroup.number = ⟨12, 1536⟩ ∧ inSecondGroup.number = 147 ∧
      locateInWords? tenBlockGroups 147 = some ⟨12, 1536⟩ ∧
      (∃ fault, fault.isIo = true ∧
        (fetch ⟨Image.zeros 40960, 4096⟩ tenBlockGroups 147).outcome = .error fault) := by
  have hsize : 1 ≤ tenBlockGroups.inodeSize := by decide
  have hbits : GroupBits tenBlockGroups := by decide
  obtain ⟨haddressed, -, -, hwords, hfetched⟩ := inodes_addressed tenBlockGroups hsize
  exact ⟨hsize, hbits, (haddressed hbits).found inSecondGroup, rfl,
    hwords (by decide) (by decide) 147 (by decide),
    (hfetched ⟨Image.zeros 40960, 4096⟩ 147).outside (by decide) (by decide) (by decide)⟩

end Xfs.Inode

end DiskScope
