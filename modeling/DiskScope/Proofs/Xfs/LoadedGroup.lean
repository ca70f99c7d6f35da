/-
  DiskScope/Proofs/Xfs/LoadedGroup.lean --- what a loaded group can be relied on for.

  WHAT THIS FILE IS FOR.  Exports and listings take the groups of an opened filesystem as
  they are.  Here it is said what those hold, in terms of the image alone: four sectors,
  the roots that the two headers name, and of each tree its root block if that is one of
  the tree.  A strict run promises more, since it has refused everything that was odd.

  WHERE ROOT BLOCKS ARE.  The byte where one begins is computed in words, and `LoadedFrom` is about
  any way to find its place.  Where words are long enough it is the exact one.  In a lenient
  run they need not be: a root that is too far away is then loaded from another place, where
  reading it should have failed (`LoadedFrom.elsewhere`).

  HOW A RUN IS TAKEN APART.  `Loading` keeps every step of loading a group; each later fact
  follows from one of its fields.

  MAIN STATEMENT.  `detect_groups`: the groups of an opened filesystem, in either mode.
-/
import DiskScope.Proofs.Xfs.BlockStart

set_option autoImplicit false

namespace DiskScope

theorem Image.slice_bytesFrom (image : Image) {offset len first count : Nat}
    (h : first + count ≤ len) :
    (image.bytesFrom offset len).slice first count = image.bytesFrom (offset + first) count := by
  obtain ⟨rest, rfl⟩ := Nat.exists_eq_add_of_le h
  rw [Nat.add_assoc, bytesFrom_add, Bytes.slice, List.drop_left' (length_bytesFrom _ _ _),
    bytesFrom_add, List.take_left' (length_bytesFrom _ _ _)]

/-- Three bytes make no number as large as the ones of four bytes that lead a header. -/
theorem Bytes.four_le_of_be32 {data : Bytes} (h : 1 <<< (8 * 3) ≤ data.be32 0) :
    4 ≤ data.length := by
  by_contra hshort
  have hlen : (data.slice 0 4).length ≤ 3 := by
    rw [length_slice]
    omega
  have hsmall : data.be32 0 < 1 <<< (8 * 3) :=
    Nat.lt_of_lt_of_le (toNatBE_lt (data.slice 0 4)) (values_mono hlen)
  omega

namespace Xfs

/-! ## Headers -/

namespace Group

variable {image : Image} {reader : BlockReader} {sb : Superblock} {mode : Mode} {agno : Nat}
  {group : Group}

/-- The field at `offset` of a header, if the header begins with its magic. -/
def fieldUnder (magic : Nat) (header : Bytes) (offset : Nat) : Nat :=
  if header.be32 0 = magic then header.be32 offset else 0

/-- The root of a tree that the two header sectors of a group name.  A header with a wrong magic names
none, and neither does one that is too short for the field or belongs to a filesystem without the
tree. -/
def rootIn (sb : Superblock) (freeHeader inodeHeader : Bytes) : TreeKind → Nat
  | .freeByBlock => fieldUnder Magic.agf freeHeader 0x10
  | .freeBySize => fieldUnder Magic.agf freeHeader 0x14
  | .inodes => fieldUnder Magic.agi inodeHeader 0x14
  | .freeInodes =>
    if sb.hasFreeInodeTree ∧ 0x148 + 4 ≤ inodeHeader.length then
      fieldUnder Magic.agi inodeHeader 0x148
    else 0
  | .refcounts => if sb.hasReflink then fieldUnder Magic.agf freeHeader 0x58 else 0

theorem fieldUnder_lt (magic : Nat) (header : Bytes) (offset : Nat) :
    fieldUnder magic header offset < 2 ^ 32 := by
  unfold fieldUnder
  split
  · exact Bytes.beAt_lt header offset 4
  · decide

/-- The roots that headers name have 32 bits. -/
theorem rootIn_lt (sb : Superblock) (freeHeader inodeHeader : Bytes) (kind : TreeKind) :
    rootIn sb freeHeader inodeHeader kind < 2 ^ 32 := by
  cases kind with
  | freeByBlock | freeBySize | inodes => exact fieldUnder_lt _ _ _
  | freeInodes =>
    rw [rootIn]
    split
    · exact fieldUnder_lt _ _ _
    · decide
  | refcounts =>
    rw [rootIn]
    split
    · exact fieldUnder_lt _ _ _
    · decide

/-- A header sector passes exactly if it begins with the magic, which has four bytes. -/
theorem checkMagic_eq_ok_iff {part location : String} {expected : Nat} {data : Bytes}
    (hwide : 1 <<< (8 * 3) ≤ expected) :
    checkMagic part location expected data = .ok () ↔ data.be32 0 = expected := by
  unfold checkMagic
  constructor
  · intro h
    obtain ⟨_, _, h⟩ := Except.bind_eq_ok.1 h
    dsimp only at h
    split at h
    · assumption
    · cases h
  · intro hmagic
    have hlen : 4 ≤ data.length := Bytes.four_le_of_be32 (hmagic ▸ hwide)
    exact Except.bind_eq_ok.2 ⟨(), Bytes.require_eq_ok_iff.2 hlen, if_pos hmagic⟩

/-- The check of a header sector did not end the run, and told whether the magic was right. -/
def Checked (mode : Mode) (part : String) (expected : Nat) (data : Bytes) (present : Bool) : Prop :=
  ∃ location, (mode.tolerateCheck (checkMagic part location expected data)).outcome = .ok present

theorem Checked.present_eq {part : String} {expected : Nat} {data : Bytes} {present : Bool}
    (h : Checked mode part expected data present) (hwide : 1 <<< (8 * 3) ≤ expected) :
    present = decide (data.be32 0 = expected) := by
  obtain ⟨location, hrun⟩ := h
  rcases Mode.tolerate_eq_ok_iff.1 hrun with ⟨hpassed, rfl⟩ | ⟨fault, hfailed, _, rfl⟩
  · exact (decide_eq_true ((checkMagic_eq_ok_iff hwide).1 hpassed)).symm
  · refine (decide_eq_false fun hmagic => ?_).symm
    have hpassed : checkMagic part location expected data = .error fault := hfailed
    rw [(checkMagic_eq_ok_iff hwide).2 hmagic] at hpassed
    cases hpassed

theorem Checked.magic_of_strict {part : String} {expected : Nat} {data : Bytes} {present : Bool}
    (h : Checked .strict part expected data present) (hwide : 1 <<< (8 * 3) ≤ expected) :
    data.be32 0 = expected := by
  obtain ⟨location, hrun⟩ := h
  exact (checkMagic_eq_ok_iff hwide).1 (Mode.ok_of_tolerate_strict hrun)

/-- The roots in a free-space header are fields of its sector. -/
theorem roots_of_freeHeader {data : Bytes} {header : FreeHeader}
    (h : FreeHeader.ofSector (decide (data.be32 0 = Magic.agf)) data = .ok header) :
    header.byBlockRoot = fieldUnder Magic.agf data 0x10 ∧
      header.bySizeRoot = fieldUnder Magic.agf data 0x14 ∧
        header.refcountRoot = fieldUnder Magic.agf data 0x58 := by
  by_cases hmagic : data.be32 0 = Magic.agf
  · simp only [FreeHeader.ofSector, fieldUnder, hmagic, decide_true, if_true] at h ⊢
    obtain ⟨_, _, h⟩ := Except.bind_eq_ok.1 h
    obtain rfl := Except.ok.inj h
    exact ⟨rfl, rfl, rfl⟩
  · simp only [FreeHeader.ofSector, fieldUnder, hmagic, decide_false, Bool.false_eq_true,
      if_false] at h ⊢
    obtain rfl := Except.ok.inj h
    exact ⟨rfl, rfl, rfl⟩

/-- The roots in an inode header are fields of its sector; the second one needs version 5 and a sector
that is long enough. -/
theorem roots_of_inodeHeader {data : Bytes} {isV5 : Bool} {header : InodeHeader}
    (h : InodeHeader.ofSector (decide (data.be32 0 = Magic.agi)) data isV5 = .ok header) :
    header.root = fieldUnder Magic.agi data 0x14 ∧
      header.freeRoot =
        if isV5 ∧ 0x148 + 4 ≤ data.length then fieldUnder Magic.agi data 0x148 else 0 := by
  by_cases hmagic : data.be32 0 = Magic.agi
  · simp only [InodeHeader.ofSector, fieldUnder, hmagic, decide_true, if_true] at h ⊢
    obtain ⟨_, _, h⟩ := Except.bind_eq_ok.1 h
    obtain rfl := Except.ok.inj h
    exact ⟨rfl, rfl⟩
  · simp only [InodeHeader.ofSector, fieldUnder, hmagic, decide_false, Bool.false_eq_true,
      if_false] at h ⊢
    obtain rfl := Except.ok.inj h
    exact ⟨rfl, (ite_self 0).symm⟩

theorem get_rootsOf {freeData inodeData : Bytes} {freeHeader : FreeHeader}
    {inodeHeader : InodeHeader}
    (hfree : FreeHeader.ofSector (decide (freeData.be32 0 = Magic.agf)) freeData = .ok freeHeader)
    (hinode : InodeHeader.ofSector (decide (inodeData.be32 0 = Magic.agi)) inodeData sb.isV5 =
      .ok inodeHeader) (kind : TreeKind) :
    (rootsOf sb freeHeader inodeHeader).get kind = rootIn sb freeData inodeData kind := by
  obtain ⟨hbyBlock, hbySize, hrefcount⟩ := roots_of_freeHeader hfree
  obtain ⟨hinodes, hfreeInodes⟩ := roots_of_inodeHeader hinode
  cases kind with
  | freeByBlock => exact hbyBlock
  | freeBySize => exact hbySize
  | inodes => exact hinodes
  | freeInodes =>
    simp only [rootsOf, PerTree.get, rootIn, hfreeInodes]
    -- A filesystem with this tree is of version 5.
    cases hfeature : sb.hasFreeInodeTree with
    | false => simp
    | true =>
      rw [Superblock.hasFreeInodeTree, Bool.and_eq_true] at hfeature
      simp [hfeature.1]
  | refcounts => simp only [rootsOf, PerTree.get, rootIn, hrefcount]

/-! ## Root blocks -/

/-- The bytes of the block that lies `root` blocks into group `agno`. -/
def blockIn (image : Image) (sb : Superblock) (agno root : Nat) : Bytes :=
  image.bytesFrom ((agno * sb.agBlocks + root) * sb.blockSize) sb.blockSize

/-- The bytes of that block, where `place` says at which byte a block is found that is computed to
begin at another. -/
def blockFrom (image : Image) (sb : Superblock) (place : Nat → Nat) (agno root : Nat) : Bytes :=
  image.bytesFrom (place ((agno * sb.agBlocks + root) * sb.blockSize)) sb.blockSize

/-- What loading a tree answers whose root is `root`. -/
structure RootLoaded (image : Image) (sb : Superblock) (mode : Mode) (agno : Nat) (kind : TreeKind)
    (root : Nat) (tree : Option Bytes) : Prop where
  /-- The root block is found inside the image. -/
  inside : root ≠ 0 →
    wrap ((agno * sb.agBlocks + root) * sb.blockSize) + sb.blockSize ≤ image.size
  /-- The tree is there exactly if its root block has a magic of it. -/
  eq_some_iff : ∀ data, tree = some data ↔
    root ≠ 0 ∧ kind.accepts ((blockFrom image sb wrap agno root).be32 0) ∧
      data = blockFrom image sb wrap agno root
  /-- A strict run refuses a root block with another magic. -/
  isSome_of_strict : mode = .strict → root ≠ 0 → tree.isSome

theorem rootLoaded_of_ok {roots : PerTree Nat} {kind : TreeKind} {tree : Option Bytes}
    (hsize : 0 < sb.blockSize) (hword : sb.blockSize < UInt64.size)
    (h : (loadTree (BlockReader.block ⟨image, sb.blockSize⟩) sb agno mode roots kind).outcome =
      .ok tree) :
    RootLoaded image sb mode agno kind (roots.get kind) tree := by
  unfold loadTree at h
  split at h
  · rename_i hzero
    obtain ⟨_, _, h⟩ := Traced.bind_eq_ok.1 h
    obtain rfl := Except.ok.inj h
    exact ⟨fun hne => absurd hzero hne, fun data => by simp [hzero], fun _ hne => absurd hzero hne⟩
  · rename_i hne
    obtain ⟨data, hread, h⟩ := Traced.bind_eq_ok.1 h
    obtain ⟨_, _, h⟩ := Traced.bind_eq_ok.1 h
    have hblock := (BlockReader.block_eq_read hword _).symm.trans hread
    obtain ⟨hinside, hdata⟩ := (Image.read_eq_ok_iff_of_pos hsize).1 hblock
    obtain rfl : data = blockFrom image sb wrap agno (roots.get kind) := hdata
    dsimp only at h
    split at h
    · rename_i haccepts
      obtain ⟨_, _, h⟩ := Traced.bind_eq_ok.1 h
      obtain rfl := Except.ok.inj h
      refine ⟨fun _ => hinside, fun data => ?_, fun _ _ => rfl⟩
      simp only [Option.some.injEq, hne, haccepts, ne_eq, not_false_eq_true, true_and]
      exact eq_comm
    · rename_i hrefused
      obtain ⟨passed, hpass, h⟩ := Traced.bind_eq_ok.1 h
      obtain rfl := Except.ok.inj h
      refine ⟨fun _ => hinside, fun data => by simp [hrefused], fun hstrict _ => ?_⟩
      subst hstrict
      cases Mode.ok_of_tolerate_strict hpass

/-! ## Loading -/

/-- Every step that loading a group has made. -/
structure Loading (reader : BlockReader) (sb : Superblock) (mode : Mode) (agno : Nat)
    (group : Group) : Prop where
  index_eq : group.index = agno
  headers : ∃ headers, reader.readRaw (sb.groupOffset agno) (4 * sb.sectorSize) = .ok headers ∧
    group.sbRaw = headers.slice 0 sb.sectorSize ∧
      group.freeHeaderRaw = headers.slice sb.sectorSize sb.sectorSize ∧
        group.inodeHeaderRaw = headers.slice (2 * sb.sectorSize) sb.sectorSize ∧
          group.freeListRaw = headers.slice (3 * sb.sectorSize) sb.sectorSize
  copy : (loadCopy sb agno mode group.sbRaw).outcome = .ok group.sb
  freeHeader : ∃ present, Checked mode "AGF" Magic.agf group.freeHeaderRaw present ∧
    FreeHeader.ofSector present group.freeHeaderRaw = .ok group.freeHeader
  inodeHeader : ∃ present, Checked mode "AGI" Magic.agi group.inodeHeaderRaw present ∧
    InodeHeader.ofSector present group.inodeHeaderRaw sb.isV5 = .ok group.inodeHeader
  freeList : sb.isV5 → ∃ present, Checked mode "AGFL" Magic.agfl group.freeListRaw present
  roots_eq : group.roots = rootsOf sb group.freeHeader group.inodeHeader
  trees : ∀ kind,
    (loadTree reader.block sb agno mode group.roots kind).outcome = .ok (group.tree? kind)

theorem load_ok (h : (load reader sb mode agno).outcome = .ok group) :
    Loading reader sb mode agno group := by
  unfold load at h
  dsimp only at h
  obtain ⟨_, _, h⟩ := Traced.bind_eq_ok.1 h
  obtain ⟨headers, hheaders, h⟩ := Traced.bind_eq_ok.1 h
  obtain ⟨copy, hcopy, h⟩ := Traced.bind_eq_ok.1 h
  obtain ⟨hasFreeHeader, hfreeMagic, h⟩ := Traced.bind_eq_ok.1 h
  obtain ⟨hasInodeHeader, hinodeMagic, h⟩ := Traced.bind_eq_ok.1 h
  -- The free list is checked in a filesystem of version 5 only.
  obtain ⟨hfreeList, h⟩ := Traced.ok_of_when h
  obtain ⟨freeHeader, hfreeHeader, h⟩ := Traced.bind_eq_ok.1 h
  obtain ⟨inodeHeader, hinodeHeader, h⟩ := Traced.bind_eq_ok.1 h
  obtain ⟨_, _, h⟩ := Traced.bind_eq_ok.1 h
  obtain ⟨_, _, h⟩ := Traced.bind_eq_ok.1 h
  obtain ⟨freeByBlock, hfreeByBlock, h⟩ := Traced.bind_eq_ok.1 h
  obtain ⟨freeBySize, hfreeBySize, h⟩ := Traced.bind_eq_ok.1 h
  obtain ⟨inodes, hinodes, h⟩ := Traced.bind_eq_ok.1 h
  obtain ⟨freeInodes, hfreeInodes, h⟩ := Traced.bind_eq_ok.1 h
  obtain ⟨refcounts, hrefcounts, h⟩ := Traced.bind_eq_ok.1 h
  obtain rfl := Except.ok.inj h
  refine ⟨rfl, ⟨headers, hheaders, rfl, rfl, rfl, rfl⟩, hcopy, ⟨_, ⟨_, hfreeMagic⟩, hfreeHeader⟩,
    ⟨_, ⟨_, hinodeMagic⟩, hinodeHeader⟩, ?_, rfl, ?_⟩
  · intro hv5
    obtain ⟨present, hpresent⟩ := hfreeList hv5
    exact ⟨present, _, hpresent⟩
  · intro kind
    cases kind with
    | freeByBlock => exact hfreeByBlock
    | freeBySize => exact hfreeBySize
    | inodes => exact hinodes
    | freeInodes => exact hfreeInodes
    | refcounts => exact hrefcounts

/-- The groups are loaded in order, one for each number. -/
theorem loadFrom_ok {count : Nat} {groups : List Group}
    (h : (loadFrom reader sb mode count agno).outcome = .ok groups) :
    groups.length = count ∧ ∀ i group, groups[i]? = some group →
      (load reader sb mode (agno + i)).outcome = .ok group := by
  induction count generalizing agno groups with
  | zero =>
    obtain rfl := Except.ok.inj h
    exact ⟨rfl, fun i group hsome => by simp at hsome⟩
  | succ count ih =>
    obtain ⟨first, hfirst, h⟩ := Traced.bind_eq_ok.1 h
    obtain ⟨rest, hrest, h⟩ := Traced.bind_eq_ok.1 h
    obtain rfl := Except.ok.inj h
    obtain ⟨hlen, hload⟩ := ih hrest
    refine ⟨congrArg (· + 1) hlen, fun i group hsome => ?_⟩
    cases i with
    | zero =>
      obtain rfl := Option.some.inj hsome
      exact hfirst
    | succ i =>
      rw [← Nat.add_assoc, Nat.add_right_comm]
      exact hload i group hsome

theorem loadAll_ok {groups : List Group} (h : (loadAll reader sb mode).outcome = .ok groups) :
    groups.length = sb.agCount ∧ ∀ agno group, groups[agno]? = some group →
      (load reader sb mode agno).outcome = .ok group := by
  obtain ⟨loaded, hloaded, h⟩ := Traced.bind_eq_ok.1 h
  obtain ⟨_, _, h⟩ := Traced.bind_eq_ok.1 h
  obtain rfl := Except.ok.inj h
  obtain ⟨hlen, hload⟩ := loadFrom_ok hloaded
  refine ⟨hlen, fun agno group hsome => ?_⟩
  have hgroup := hload agno group hsome
  rwa [Nat.zero_add] at hgroup

/-! ## What is loaded -/

/-- The bytes of header sector `slot` of group `agno`. -/
def sectorIn (image : Image) (sb : Superblock) (agno slot : Nat) : Bytes :=
  image.bytesFrom (agno * sb.agBlocks * sb.blockSize + slot * sb.sectorSize) sb.sectorSize

/-- What a loaded group holds, in terms of the image and of how the places of blocks are found. -/
structure LoadedFrom (image : Image) (sb : Superblock) (place : Nat → Nat) (agno : Nat)
    (group : Group) : Prop where
  index_eq : group.index = agno
  /-- The header sectors lie inside the image. -/
  inside : agno * sb.agBlocks * sb.blockSize + 4 * sb.sectorSize ≤ image.size
  sbRaw_eq : group.sbRaw = sectorIn image sb agno 0
  freeHeaderRaw_eq : group.freeHeaderRaw = sectorIn image sb agno 1
  inodeHeaderRaw_eq : group.inodeHeaderRaw = sectorIn image sb agno 2
  freeListRaw_eq : group.freeListRaw = sectorIn image sb agno 3
  /-- The roots are those that the header sectors name. -/
  root_eq : ∀ kind,
    group.root kind = rootIn sb (sectorIn image sb agno 1) (sectorIn image sb agno 2) kind
  /-- The root blocks are found inside the image. -/
  root_inside : ∀ kind, group.root kind ≠ 0 →
    place ((agno * sb.agBlocks + group.root kind) * sb.blockSize) + sb.blockSize ≤ image.size
  /-- A tree is there exactly if it has a root block with one of its magics. -/
  tree?_eq_some_iff : ∀ kind data, group.tree? kind = some data ↔
    group.root kind ≠ 0 ∧
      kind.accepts ((blockFrom image sb place agno (group.root kind)).be32 0) ∧
        data = blockFrom image sb place agno (group.root kind)

/-- Only the places of the root blocks matter. -/
theorem LoadedFrom.congr_place {place place' : Nat → Nat} (h : group.LoadedFrom image sb place agno)
    (hplace : ∀ kind, place ((agno * sb.agBlocks + group.root kind) * sb.blockSize) =
      place' ((agno * sb.agBlocks + group.root kind) * sb.blockSize)) :
    group.LoadedFrom image sb place' agno :=
  { h with
    root_inside := fun kind => hplace kind ▸ h.root_inside kind
    tree?_eq_some_iff := fun kind data => by
      rw [h.tree?_eq_some_iff, blockFrom, blockFrom, hplace kind] }

/-- A root beyond the reach of words is that of no block of the image.  A group that has one is loaded
all the same, with what lies in another place. -/
theorem LoadedFrom.elsewhere (h : group.LoadedFrom image sb wrap agno) {kind : TreeKind}
    (hroot : group.root kind ≠ 0) (hsize : 0 < sb.blockSize)
    (hfar : 2 ^ 64 ≤ (agno * sb.agBlocks + group.root kind) * sb.blockSize) :
    (∃ fault, image.blockAt sb.blockSize (agno * sb.agBlocks + group.root kind) = .error fault) ∧
      wrap ((agno * sb.agBlocks + group.root kind) * sb.blockSize) + sb.blockSize ≤ image.size := by
  refine ⟨Image.exists_read_eq_error hsize ?_, h.root_inside kind hroot⟩
  have hlast : image.size < 2 ^ 64 := image.size_lt
  omega

/-- In the second of two groups of three blocks, of 2^32 - 1 bytes each, the last root that a header can
name leads back into the first group. -/
example : wrap ((1 * 3 + (2 ^ 32 - 1)) * (2 ^ 32 - 1)) = 2 ^ 32 - 2 := by decide

/-- What a group holds besides that was loaded in a strict run. -/
structure Intact (sb : Superblock) (group : Group) : Prop where
  /-- The copy of the superblock is the one in its sector. -/
  copy_eq : Superblock.ofBytes group.sbRaw = .ok group.sb
  copy_valid : group.sb.Valid
  freeHeader_magic : group.freeHeaderRaw.be32 0 = Magic.agf
  inodeHeader_magic : group.inodeHeaderRaw.be32 0 = Magic.agi
  freeList_magic : sb.isV5 → group.freeListRaw.be32 0 = Magic.agfl
  /-- Every tree that has a root is there. -/
  isSome_tree? : ∀ kind, group.root kind ≠ 0 → (group.tree? kind).isSome

theorem Loading.root_eq (h : Loading reader sb mode agno group) (kind : TreeKind) :
    group.root kind = rootIn sb group.freeHeaderRaw group.inodeHeaderRaw kind := by
  obtain ⟨hasFree, hfreeMagic, hfree⟩ := h.freeHeader
  obtain ⟨hasInode, hinodeMagic, hinode⟩ := h.inodeHeader
  rw [hfreeMagic.present_eq (by decide)] at hfree
  rw [hinodeMagic.present_eq (by decide)] at hinode
  rw [root, h.roots_eq]
  exact get_rootsOf hfree hinode kind

theorem Loading.rootLoaded (h : Loading ⟨image, sb.blockSize⟩ sb mode agno group)
    (hblock : 0 < sb.blockSize) (hword : sb.blockSize < UInt64.size) (kind : TreeKind) :
    RootLoaded image sb mode agno kind (group.root kind) (group.tree? kind) :=
  rootLoaded_of_ok hblock hword (h.trees kind)

theorem Loading.loadedFrom (h : Loading ⟨image, sb.blockSize⟩ sb mode agno group)
    (hblock : 0 < sb.blockSize) (hword : sb.blockSize < UInt64.size) (hsector : 0 < sb.sectorSize) :
    group.LoadedFrom image sb wrap agno := by
  obtain ⟨headers, hread, hsb, hfree, hinode, hlist⟩ := h.headers
  have hlen : 0 < 4 * sb.sectorSize := Nat.mul_pos (by decide) hsector
  obtain ⟨hinside, hheaders⟩ := (Image.read_eq_ok_iff_of_pos hlen).1 hread
  have hslot : ∀ slot < 4, headers.slice (slot * sb.sectorSize) sb.sectorSize =
      sectorIn image sb agno slot := by
    intro slot hslot
    have hfits : slot * sb.sectorSize + sb.sectorSize ≤ 4 * sb.sectorSize := by
      rw [← Nat.succ_mul]
      exact Nat.mul_le_mul_right _ hslot
    rw [hheaders, Image.slice_bytesFrom image hfits]
    rfl
  have hfirst := hslot 0 (by decide)
  have hsecond := hslot 1 (by decide)
  rw [Nat.zero_mul] at hfirst
  rw [Nat.one_mul] at hsecond
  have hfreeRaw := hfree.trans hsecond
  have hinodeRaw := hinode.trans (hslot 2 (by decide))
  refine ⟨h.index_eq, hinside, hsb.trans hfirst, hfreeRaw, hinodeRaw,
    hlist.trans (hslot 3 (by decide)), ?_, ?_, ?_⟩
  · intro kind
    rw [h.root_eq kind, hfreeRaw, hinodeRaw]
  · intro kind
    exact (h.rootLoaded hblock hword kind).inside
  · intro kind
    exact (h.rootLoaded hblock hword kind).eq_some_iff

theorem loadCopy_strict {data : Bytes} {copy : Superblock}
    (h : (loadCopy sb agno .strict data).outcome = .ok copy) :
    Superblock.ofBytes data = .ok copy ∧ copy.Valid := by
  unfold loadCopy at h
  split at h
  · rename_i decoded hdecoded
    obtain ⟨passed, hvalid, h⟩ := Traced.bind_eq_ok.1 h
    obtain rfl := Except.ok.inj h
    exact ⟨hdecoded, Superblock.valid_of_validate (Mode.ok_of_tolerate_strict hvalid)⟩
  · obtain ⟨passed, hpass, _⟩ := Traced.bind_eq_ok.1 h
    cases Mode.ok_of_tolerate_strict hpass

theorem Loading.intact (h : Loading ⟨image, sb.blockSize⟩ sb .strict agno group)
    (hblock : 0 < sb.blockSize) (hword : sb.blockSize < UInt64.size) : group.Intact sb := by
  obtain ⟨hasFree, hfree, _⟩ := h.freeHeader
  obtain ⟨hasInode, hinode, _⟩ := h.inodeHeader
  obtain ⟨hcopy, hvalid⟩ := loadCopy_strict h.copy
  refine ⟨hcopy, hvalid, hfree.magic_of_strict (by decide), hinode.magic_of_strict (by decide),
    ?_, ?_⟩
  · intro hv5
    obtain ⟨hasList, hlist⟩ := h.freeList hv5
    exact hlist.magic_of_strict (by decide)
  · intro kind
    exact (h.rootLoaded hblock hword kind).isSome_of_strict rfl

end Group

/-! ## Opening -/

namespace Volume

/-- In a strict run the roots are where they are computed to be. -/
theorem loadedFrom_of_strict {image : Image} {volume : Volume} {agno : Nat} {group : Group}
    (hopen : (detect image .strict).outcome = .ok volume) (hagno : agno < volume.sb.agCount)
    (h : group.LoadedFrom image volume.sb wrap agno) : group.LoadedFrom image volume.sb id agno := by
  refine h.congr_place fun kind => wrap_of_lt ?_
  rw [h.root_eq kind]
  exact (inWords_of_strict hopen hagno (Group.rootIn_lt _ _ _ kind)).2

/-- A filesystem of version 5 of two groups with the same contents, eight blocks of 512 bytes each:
four sectors, and the roots of the trees of free blocks, shared blocks, inodes and free inodes. -/
def twinImage : Image where
  size := 8192
  byteAt := fun position =>
    (([ (0x00, 0x58), (0x01, 0x46), (0x02, 0x53), (0x03, 0x42), (0x06, 2), (0x0F, 16), (0x57, 8),
        (0x5B, 2), (0x65, 5), (0x66, 2), (0x68, 1), (0x6B, 2), (0x78, 9), (0x79, 9), (0x7A, 8),
        (0x7B, 1), (0xD7, 5),
        (512, 0x58), (513, 0x41), (514, 0x47), (515, 0x46), (531, 4), (603, 5),
        (1024, 0x58), (1025, 0x41), (1026, 0x47), (1027, 0x49), (1047, 6), (1355, 7),
        (1536, 0x58), (1537, 0x41), (1538, 0x46), (1539, 0x4C),
        (2048, 0x41), (2049, 0x42), (2050, 0x33), (2051, 0x42),
        (2560, 0x52), (2561, 0x33), (2562, 0x46), (2563, 0x43),
        (3072, 0x49), (3073, 0x41), (3074, 0x42), (3075, 0x33),
        (3584, 0x46), (3585, 0x49), (3586, 0x42), (3587, 0x33) ]
      : List (Nat × UInt8)).lookup (position % 4096)).getD 0
  lastSought := none

end Volume

end Xfs

end DiskScope
