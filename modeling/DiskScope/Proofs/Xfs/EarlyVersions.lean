/-
  DiskScope/Proofs/Xfs/EarlyVersions.lean --- what superblocks before version 5 do not tell.

  WHAT THIS FILE IS FOR.  The words of version 5 lie behind the fields that every version has.  In
  an older filesystem there may stand anything, left over from an earlier one.  Here two buffers are
  compared that are alike up to there: they are read alike, and nothing that is asked of the two
  superblocks can tell them apart.  Only the bytes that are kept for display differ, and of those
  nothing is shown that differs.

  GROUPS.  The trees of free inodes and of shared blocks came with version 5.  The headers of a
  group have room for their roots in any version; before version 5 nothing there counts.

  MAIN STATEMENTS.

      indistinct_of_agree      two buffers that are alike in the fields of every version
      bare_of_load             groups without the trees of version 5
      early_versions           both
-/
import DiskScope.Proofs.Xfs.FieldTables
import DiskScope.Proofs.Xfs.LoadedGroup

set_option autoImplicit false

namespace DiskScope.Xfs

/-! ## Superblocks -/

namespace Superblock

variable {sb other : Superblock} {raw : Bytes} {location : String} {imageSize : Nat} {mode : Mode}

/-- The superblock with other bytes kept. -/
def keeping (sb : Superblock) (raw : Bytes) : Superblock := { sb with raw := raw }

/-- None of the words of version 5 says anything. -/
structure Featureless (sb : Superblock) : Prop where
  compat_eq : sb.compat = 0
  roCompat_eq : sb.roCompat = 0
  incompat_eq : sb.incompat = 0
  logIncompat_eq : sb.logIncompat = 0
  hasFreeInodeTree_eq : sb.hasFreeInodeTree = false
  hasReflink_eq : sb.hasReflink = false
  hasReverseMap_eq : sb.hasReverseMap = false
  hasSparseInodes_eq : sb.hasSparseInodes = false

/-- Two superblocks that differ in the bytes that they have kept, and in nothing that can be asked
of them. -/
structure Indistinct (sb other : Superblock) : Prop where
  /-- All decoded fields are alike. -/
  fields_eq : other = sb.keeping other.raw
  validate_eq : ∀ location mode, other.validate location mode = sb.validate location mode
  /-- The same is told when they are fitted to an image. -/
  fit_events_eq : ∀ location imageSize mode,
    (other.fit location imageSize mode).events = (sb.fit location imageSize mode).events
  /-- And the same comes of it. -/
  fit_outcome_eq : ∀ location imageSize mode, (other.fit location imageSize mode).outcome =
    (sb.fit location imageSize mode).outcome.map (·.keeping other.raw)
  hasFileType_eq : other.hasFileType = sb.hasFileType
  locate_eq : ∀ ino, Inode.locate other ino = Inode.locate sb ino
  render_eq : other.render = sb.render

theorem features_of_early (h : sb.isV5 = false) :
    sb.hasFreeInodeTree = false ∧ sb.hasReflink = false ∧ sb.hasReverseMap = false ∧
      sb.hasSparseInodes = false := by
  simp [hasFreeInodeTree, hasReflink, hasReverseMap, hasSparseInodes, h]

/-! ### Kept bytes -/

theorem clampBlocks_keeping :
    (sb.keeping raw).clampBlocks location imageSize mode =
      sb.clampBlocks location imageSize mode >>= fun fitted => pure (fitted.keeping raw) := by
  -- Which way is taken does not depend on the kept bytes.
  by_cases hheld : 1 ≤ sb.blocks ∧ sb.blocks ≤ sb.blockLimit imageSize
  · have hkeeps : (sb.keeping raw).clampBlocks location imageSize mode = pure (sb.keeping raw) :=
      if_pos hheld
    rw [hkeeps, clampBlocks, if_pos hheld, Traced.pure_bind]
  · refine (if_neg hheld).trans ?_
    rw [clampBlocks, if_neg hheld]
    simp only [Traced.bind_assoc, Traced.pure_bind]
    rfl

theorem fit_keeping :
    (sb.keeping raw).fit location imageSize mode =
      sb.fit location imageSize mode >>= fun fitted => pure (fitted.keeping raw) := by
  unfold fit
  rw [clampBlocks_keeping]
  simp only [Traced.bind_assoc, Traced.pure_bind]
  rfl

/-- Other bytes are noticed by nothing but the display. -/
theorem indistinct_keeping (hrender : (sb.keeping raw).render = sb.render) :
    Indistinct sb (sb.keeping raw) where
  fields_eq := rfl
  validate_eq _ _ := rfl
  fit_events_eq location imageSize mode := by rw [fit_keeping, Traced.events_bind_pure]
  fit_outcome_eq location imageSize mode := by
    rw [fit_keeping, Traced.outcome_bind_pure]
    rfl
  hasFileType_eq := rfl
  locate_eq _ := rfl
  render_eq := hrender

/-! ### Buffers -/

variable {data data' : Bytes}

theorem isV5_assemble (hversion : versionOf (data.be16 0x64) ≠ 5) :
    (assemble data).isV5 = false :=
  beq_eq_false_iff_ne.2 hversion

theorem featureless_assemble (hversion : versionOf (data.be16 0x64) ≠ 5) :
    (assemble data).Featureless := by
  obtain ⟨hfreeInodes, hreflink, hreverse, hsparse⟩ := features_of_early (isV5_assemble hversion)
  exact ⟨if_neg hversion, if_neg hversion, if_neg hversion, if_neg hversion, hfreeInodes, hreflink,
    hreverse, hsparse⟩

theorem assemble_eq_of_agree (h : Bytes.AgreeTo 0xD0 data data')
    (hversion : versionOf (data.be16 0x64) ≠ 5) :
    assemble data' = (assemble data).keeping (assemble data').raw := by
  have hword : data.be16 0x64 = data'.be16 0x64 := h.beAt_eq (by decide)
  have hversion' : versionOf (data'.be16 0x64) ≠ 5 := hword ▸ hversion
  simp only [assemble, keeping, if_neg hversion, if_neg hversion']
  simp (disch := decide) only [h.beAt_eq, h.slice_eq, h.byteAt_eq]

/-- Two buffers that are alike in the fields of every version, and not of version 5. -/
theorem indistinct_of_agree (h : Bytes.AgreeTo 0xD0 data data')
    (hversion : data.be16 0x64 % 16 ≠ 5) :
    ∃ sb other, ofBytes data = .ok sb ∧ ofBytes data' = .ok other ∧
      sb.Featureless ∧ other.Featureless ∧ Indistinct sb other := by
  have hword : data.be16 0x64 = data'.be16 0x64 := h.beAt_eq (by decide)
  have hversion' : data'.be16 0x64 % 16 ≠ 5 := hword ▸ hversion
  have hread : ofBytes data = .ok (assemble data) :=
    ofBytes_of_le h.le_left fun h5 => absurd h5 hversion
  have hread' : ofBytes data' = .ok (assemble data') :=
    ofBytes_of_le h.le_right fun h5 => absurd h5 hversion'
  have hfields := assemble_eq_of_agree h hversion
  have hrender : (assemble data').render = (assemble data).render := by
    have hfeatures : (assemble data').featureLines = (assemble data).featureLines := by
      rw [hfields]
      rfl
    rw [(displayed_of_ofBytes hread).render_eq, (displayed_of_ofBytes hread').render_eq,
      Field.render_eq_of_agree h stop_le_of_mem, isV5_assemble hversion, isV5_assemble hversion',
      if_neg Bool.false_ne_true, if_neg Bool.false_ne_true, hfeatures]
  refine ⟨_, _, hread, hread', featureless_assemble hversion, featureless_assemble hversion', ?_⟩
  rw [hfields] at hrender ⊢
  exact indistinct_keeping hrender

end Superblock

/-! ## Groups -/

namespace Group

variable {reader : BlockReader} {sb : Superblock} {mode : Mode} {agno : Nat} {group : Group}

/-- The group has no trees that came with version 5. -/
structure Bare (group : Group) : Prop where
  /-- The field of the inode header that came with them is not read. -/
  freeRoot_eq : group.inodeHeader.freeRoot = 0
  freeInodes_root_eq : group.root .freeInodes = 0
  refcounts_root_eq : group.root .refcounts = 0
  freeInodes_tree_eq : group.tree? .freeInodes = none
  refcounts_tree_eq : group.tree? .refcounts = none

theorem tree_eq_none_of_ok {roots : PerTree Nat} {kind : TreeKind} {tree : Option Bytes}
    (hroot : roots.get kind = 0)
    (h : (loadTree reader.block sb agno mode roots kind).outcome = .ok tree) : tree = none := by
  rw [loadTree, if_pos hroot] at h
  obtain ⟨_, _, hnone⟩ := Traced.bind_eq_ok.1 h
  exact (Except.ok.inj hnone).symm

/-- Before version 5 a group is loaded without them, whatever its headers hold. -/
theorem bare_of_load (hversion : sb.isV5 = false)
    (h : (load reader sb mode agno).outcome = .ok group) : group.Bare := by
  have hloading := load_ok h
  obtain ⟨hnoFreeInodes, hnoReflink, _, _⟩ := Superblock.features_of_early hversion
  have hfreeInodes : group.root .freeInodes = 0 := by
    rw [hloading.root_eq, rootIn, hnoFreeInodes]
    rfl
  have hrefcounts : group.root .refcounts = 0 := by
    rw [hloading.root_eq, rootIn, hnoReflink]
    rfl
  obtain ⟨present, hmagic, hheader⟩ := hloading.inodeHeader
  rw [hmagic.present_eq (by decide)] at hheader
  refine ⟨?_, hfreeInodes, hrefcounts, tree_eq_none_of_ok hfreeInodes (hloading.trees _),
    tree_eq_none_of_ok hrefcounts (hloading.trees _)⟩
  rw [(roots_of_inodeHeader hheader).2, hversion]
  rfl

theorem bare_of_mem_loadAll {groups : List Group} (hversion : sb.isV5 = false)
    (h : (loadAll reader sb mode).outcome = .ok groups) : ∀ group ∈ groups, group.Bare := by
  intro group hmem
  obtain ⟨agno, hsome⟩ := List.mem_iff_getElem?.1 hmem
  exact bare_of_load hversion ((loadAll_ok h).2 agno group hsome)

end Group

/-! ## Both -/

/-- Before version 5 nothing behind the fields of every version counts. -/
theorem early_versions :
    (∀ data data' : Bytes, Bytes.AgreeTo 0xD0 data data' → data.be16 0x64 % 16 ≠ 5 →
      ∃ sb other, Superblock.ofBytes data = .ok sb ∧ Superblock.ofBytes data' = .ok other ∧
        sb.Featureless ∧ other.Featureless ∧ Superblock.Indistinct sb other) ∧
    ∀ (reader : BlockReader) (sb : Superblock) (mode : Mode), sb.version ≠ 5 →
      (∀ agno group, (Group.load reader sb mode agno).outcome = .ok group → group.Bare) ∧
      ∀ groups, (Group.loadAll reader sb mode).outcome = .ok groups →
        ∀ group ∈ groups, group.Bare := by
  refine ⟨fun data data' => Superblock.indistinct_of_agree, fun reader sb mode hversion => ?_⟩
  have hearly : sb.isV5 = false := beq_eq_false_iff_ne.2 hversion
  exact ⟨fun agno group => Group.bare_of_load hearly,
    fun groups => Group.bare_of_mem_loadAll hearly⟩

/-- The fields of a superblock of version 4, and no byte more. -/
def earlyBytes : Bytes := List.replicate 0x64 0x11 ++ [0x84, 0x24] ++ List.replicate 0x6A 0x11

/-- The geometry of the groups of the twin image, told by a superblock of version 4 behind whose
fields something else is left. -/
def earlyTwin : Superblock :=
  { (default : Superblock) with
    blockSize := 512, sectorSize := 512, agBlocks := 8, agCount := 2
    versionWord := 0x8424, roCompat := 0xFFFFFFFF }

/-- Left-over bytes change nothing; and of the roots in the headers of the twin image those of
shared blocks and of free inodes are not taken. -/
theorem earlyTwin_bare :
    (∃ sb other, Superblock.ofBytes earlyBytes = .ok sb ∧
      Superblock.ofBytes (earlyBytes ++ List.replicate 0x150 0xFF) = .ok other ∧
        sb.raw ≠ other.raw ∧ other.Featureless ∧ Superblock.Indistinct sb other) ∧
    ∃ group, (Group.load ⟨Volume.twinImage, 512⟩ earlyTwin .strict 1).outcome = .ok group ∧
      group.freeHeader.refcountRoot = 5 ∧ TreeKind.all.map group.root = [4, 0, 6, 0, 0] ∧
        group.Bare := by
  obtain ⟨hbuffers, hgroups⟩ := early_versions
  constructor
  · have hagree : Bytes.AgreeTo 0xD0 (earlyBytes ++ []) (earlyBytes ++ List.replicate 0x150 0xFF) :=
      .of_append (by decide +kernel) _ _
    rw [List.append_nil] at hagree
    obtain ⟨sb, other, hsb, hother, _, hfeatureless, hindistinct⟩ := hbuffers _ _ hagree (by decide)
    refine ⟨sb, other, hsb, hother, ?_, hfeatureless, hindistinct⟩
    obtain ⟨_, _, rfl⟩ := Superblock.ofBytes_eq_ok_iff.1 hsb
    obtain ⟨_, _, rfl⟩ := Superblock.ofBytes_eq_ok_iff.1 hother
    decide +kernel
  · have hloads : ((Group.load ⟨Volume.twinImage, 512⟩ earlyTwin .strict 1).outcome.toOption.map
        fun group => (group.freeHeader.refcountRoot, TreeKind.all.map group.root)) =
          some (5, [4, 0, 6, 0, 0]) := by decide +kernel
    obtain ⟨group, hload, hanswer⟩ := Except.exists_of_toOption_map hloads
    obtain ⟨hheader, hroots⟩ := Prod.mk.inj hanswer
    exact ⟨group, hload, hheader, hroots, (hgroups _ _ _ (by decide)).1 1 group hload⟩

end DiskScope.Xfs
