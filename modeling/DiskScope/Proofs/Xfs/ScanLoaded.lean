/-
  DiskScope/Proofs/Xfs/ScanLoaded.lean --- a scan sees what was loaded.

  WHAT THIS FILE IS FOR.  Opening a filesystem and scanning its image find structures in two ways.
  The one follows addresses: it computes where a group begins, and goes from its headers to
  the roots of its trees.  The other follows none and tries every sector.  In a strict run
  everything that the first accepts begins with a magic that the second knows, so it has to
  be reported; here it is shown that it is, at the same place and as the same structure.

  WHERE SECTORS BEGIN.  The sizes of blocks and sectors are powers of two, so a block that has
  room for the four headers of a group is cut into whole sectors (`sectorSize_dvd`).

  MAIN STATEMENTS.

      found_of_word   a structure that begins at a sector of a block is reported
      scan_sees       a scan reports the headers and the roots of every loaded group
-/
import DiskScope.Proofs.Xfs.LoadedGroup
import DiskScope.Proofs.Xfs.Recognition
import DiskScope.Proofs.Xfs.ScanExact

set_option autoImplicit false

namespace DiskScope

/-- The first word from an offset on does not depend on how much is read from there. -/
theorem Image.be32_bytesFrom (image : Image) {offset len : Nat} (h : 4 ≤ len) :
    (image.bytesFrom offset len).be32 0 = Bytes.toNatBE (image.bytesFrom offset 4) := by
  rw [Bytes.be32, Bytes.beAt, image.slice_bytesFrom (by omega), Nat.add_zero]

namespace Xfs

/-! ## Words that structures begin with -/

/-- No magic of four bytes begins with a zero byte. -/
theorem Structure.value_wide : ∀ kind ∈ all, kind.magic.size = 4 →
    1 <<< (8 * 3) ≤ kind.magic.value := by
  decide

theorem Structure.four_le_length {kind : Structure} {data : Bytes}
    (h : kind.magic = .four (data.be32 0)) : 4 ≤ data.length := by
  have hwide := value_wide kind kind.mem_all
  rw [h] at hwide
  exact Bytes.four_le_of_be32 (hwide rfl)

/-- Every magic that the root block of a tree may have is that of a structure. -/
theorem TreeKind.exists_structure {tree : TreeKind} {magic : Nat}
    (h : tree.accepts magic = true) :
    ∃ kind : Structure, kind.magic = .four magic ∧ kind ≠ .logRecord := by
  have htable : ∀ magic ∈ tree.magics,
      ∃ kind ∈ Structure.all, kind.magic = .four magic ∧ kind ≠ .logRecord := by
    cases tree <;> decide
  obtain ⟨kind, -, hkind⟩ := htable magic (of_decide_eq_true h)
  exact ⟨kind, hkind⟩

namespace Scan

/-! ## Scans by sectors -/

/-- The scan tries every sector of every whole block of the image. -/
structure BySectors (scan : Scan) (image : Image) (sb : Superblock) : Prop where
  image_eq : scan.image = image
  blockSize_eq : scan.blockSize = sb.blockSize
  stride_eq : scan.stride = sb.sectorSize
  limit_eq : scan.limit = image.size / sb.blockSize * sb.blockSize

variable {scan : Scan} {hits : List ScanHit} {image : Image} {sb : Superblock}

theorem BySectors.exists_toList_eq (h : scan.BySectors image sb) :
    ∃ hits, scan.toList = hits.map .ok ∧ ScanHit.Lists scan.Owes hits := by
  have hwhole : scan.blockSize ∣ scan.limit := by
    rw [h.limit_eq, h.blockSize_eq]
    exact Nat.dvd_mul_left _ _
  have hsize : scan.limit ≤ scan.image.size := by
    rw [h.limit_eq, h.image_eq]
    exact Nat.div_mul_le_self _ _
  obtain ⟨hits, hitems, honward⟩ := itemsFrom_onward hwhole hsize .first scan.standing_first
  exact ⟨hits, hitems, honward.lists⟩

theorem BySectors.found_of_word (h : scan.BySectors image sb) (hlists : ScanHit.Lists scan.Owes hits)
    {block offset len : Nat} {kind : Structure}
    (hblock : (block + 1) * sb.blockSize ≤ image.size)
    (hsector : sb.sectorSize ∣ block * sb.blockSize + offset) (hlen : offset + len ≤ sb.blockSize)
    (hmagic : kind.magic = .four ((image.bytesFrom (block * sb.blockSize + offset) len).be32 0))
    (hlog : kind ≠ .logRecord) : .found block offset kind ∈ hits := by
  obtain ⟨rfl, hsize, hstride, hlimit⟩ := h
  rw [← hsize] at hblock hsector hlen hmagic hlimit
  have hfour : 4 ≤ len := by
    simpa using Structure.four_le_length hmagic
  have hoffset : offset < scan.blockSize := by omega
  have hquot : (block * scan.blockSize + offset) / scan.blockSize = block := by
    rw [Nat.mul_comm, Nat.mul_add_div scan.blockSize_pos, Nat.div_eq_of_lt hoffset, Nat.add_zero]
  have hrest : (block * scan.blockSize + offset) % scan.blockSize = offset := by
    rw [Nat.mul_comm, Nat.mul_add_mod, Nat.mod_eq_of_lt hoffset]
  -- The end of the scan is the end of a block, so a whole block lies before it.
  have htests : scan.Tests (block * scan.blockSize + offset) := by
    have hwhole : block + 1 ≤ scan.image.size / scan.blockSize :=
      (Nat.le_div_iff_mul_le scan.blockSize_pos).2 hblock
    have hend := Nat.mul_le_mul_right scan.blockSize hwhole
    rw [← hlimit, Nat.succ_mul] at hend
    exact ⟨hstride ▸ hsector, by omega⟩
  -- The scan looks at all that is left of the block, the loader only at what it has read.
  have hkind : scan.structureAt? (block * scan.blockSize + offset) = some kind := by
    refine Structure.identify_of_be32 ?_ ?_
    · rw [Image.length_bytesFrom, hrest]
      omega
    · rw [hmagic, hrest, Image.be32_bytesFrom _ hfour, Image.be32_bytesFrom _ (by omega)]
  exact (hlists.mem_iff _).2 ⟨_, htests, hquot, hrest, hkind, hlog⟩

end Scan

/-! ## Groups -/

namespace Group

variable {image : Image} {sb : Superblock} {agno : Nat} {group : Group} {hits : List ScanHit}

/-- The hits have the headers of a loaded group, and each root of it as the structure that the root
block begins with. -/
structure SeenIn (group : Group) (image : Image) (sb : Superblock) (agno : Nat)
    (hits : List ScanHit) : Prop where
  superblock : .found (agno * sb.agBlocks) 0 .superblock ∈ hits
  freeHeader : .found (agno * sb.agBlocks) sb.sectorSize .agf ∈ hits
  inodeHeader : .found (agno * sb.agBlocks) (2 * sb.sectorSize) .agi ∈ hits
  freeList : sb.isV5 → .found (agno * sb.agBlocks) (3 * sb.sectorSize) .agfl ∈ hits
  root : ∀ tree, group.root tree ≠ 0 → ∃ kind : Structure,
    kind.magic = .four ((blockIn image sb agno (group.root tree)).be32 0) ∧
      .found (agno * sb.agBlocks + group.root tree) 0 kind ∈ hits

theorem LoadedFrom.accepts_root (hloaded : group.LoadedFrom image sb id agno)
    (hintact : group.Intact sb) {tree : TreeKind} (hroot : group.root tree ≠ 0) :
    tree.accepts ((blockIn image sb agno (group.root tree)).be32 0) = true := by
  obtain ⟨data, hdata⟩ := Option.isSome_iff_exists.1 (hintact.isSome_tree? tree hroot)
  exact ((hloaded.tree?_eq_some_iff tree data).1 hdata).2.1

theorem found_header {scan : Scan} (h : scan.BySectors image sb)
    (hlists : ScanHit.Lists scan.Owes hits) (hdvd : sb.sectorSize ∣ sb.blockSize)
    (hroom : 4 * sb.sectorSize ≤ sb.blockSize)
    (hblock : (agno * sb.agBlocks + 1) * sb.blockSize ≤ image.size) {slot : Nat} (hslot : slot < 4)
    {kind : Structure} (hmagic : kind.magic = .four ((sectorIn image sb agno slot).be32 0))
    (hlog : kind ≠ .logRecord) :
    .found (agno * sb.agBlocks) (slot * sb.sectorSize) kind ∈ hits := by
  have hsector : sb.sectorSize ∣ agno * sb.agBlocks * sb.blockSize + slot * sb.sectorSize :=
    Nat.dvd_add (hdvd.mul_left _) (Nat.dvd_mul_left _ _)
  have hlen : slot * sb.sectorSize + sb.sectorSize ≤ sb.blockSize := by
    rw [← Nat.succ_mul]
    exact Nat.le_trans (Nat.mul_le_mul_right _ hslot) hroom
  exact h.found_of_word hlists hblock hsector hlen hmagic hlog

/-- A scan by sectors sees a group that a strict run has loaded. -/
theorem LoadedFrom.seenIn {scan : Scan} (hloaded : group.LoadedFrom image sb id agno)
    (hintact : group.Intact sb) (h : scan.BySectors image sb)
    (hlists : ScanHit.Lists scan.Owes hits) (hdvd : sb.sectorSize ∣ sb.blockSize)
    (hroom : 4 * sb.sectorSize ≤ sb.blockSize)
    (hblock : (agno * sb.agBlocks + 1) * sb.blockSize ≤ image.size) :
    group.SeenIn image sb agno hits := by
  have hheader : ∀ slot < 4, ∀ kind : Structure,
      kind.magic = .four ((sectorIn image sb agno slot).be32 0) → kind ≠ .logRecord →
        .found (agno * sb.agBlocks) (slot * sb.sectorSize) kind ∈ hits :=
    fun slot hslot kind hmagic hlog => found_header h hlists hdvd hroom hblock hslot hmagic hlog
  refine ⟨?_, ?_, ?_, ?_, ?_⟩
  · have hmagic : (sectorIn image sb agno 0).be32 0 = Magic.superblock := by
      rw [← hloaded.sbRaw_eq, ← (Superblock.leading_words hintact.copy_eq).1,
        hintact.copy_valid.magic_eq]
    have hfound := hheader 0 (by decide) .superblock (by rw [hmagic]; rfl) nofun
    rwa [Nat.zero_mul] at hfound
  · have hmagic := hintact.freeHeader_magic
    rw [hloaded.freeHeaderRaw_eq] at hmagic
    have hfound := hheader 1 (by decide) .agf (by rw [hmagic]; rfl) nofun
    rwa [Nat.one_mul] at hfound
  · have hmagic := hintact.inodeHeader_magic
    rw [hloaded.inodeHeaderRaw_eq] at hmagic
    exact hheader 2 (by decide) .agi (by rw [hmagic]; rfl) nofun
  · intro hv5
    have hmagic := hintact.freeList_magic hv5
    rw [hloaded.freeListRaw_eq] at hmagic
    exact hheader 3 (by decide) .agfl (by rw [hmagic]; rfl) nofun
  · intro tree hroot
    obtain ⟨kind, hkind, hlog⟩ := TreeKind.exists_structure (hloaded.accepts_root hintact hroot)
    have hinside : (agno * sb.agBlocks + group.root tree + 1) * sb.blockSize ≤ image.size := by
      rw [Nat.succ_mul]
      exact hloaded.root_inside tree hroot
    refine ⟨kind, hkind, h.found_of_word hlists hinside ?_ ?_ hkind hlog⟩
    · exact hdvd.mul_left _
    · rw [Nat.zero_add]

end Group

/-! ## Opened volumes -/

namespace Volume

variable {image : Image} {mode : Mode} {volume : Volume} {stride : Option Nat}

/-- In a strict run the sizes are powers of two, so that sectors no larger than a block cut it. -/
theorem sectorSize_dvd (hopen : (detect image .strict).outcome = .ok volume)
    (hle : volume.sb.sectorSize ≤ volume.sb.blockSize) :
    volume.sb.sectorSize ∣ volume.sb.blockSize := by
  obtain ⟨_, disk, _, _, hvalid, hblock, _, hfit⟩ := readSuperblock_ok (detect_ok hopen).1
  have hfitted := Superblock.fitted_of_ok (Nat.pos_of_ne_zero hblock) hfit
  have hsizes := Superblock.valid_of_validate hvalid
  rw [hfitted.eq_held] at hle ⊢
  change disk.sectorSize ≤ disk.blockSize at hle
  change disk.sectorSize ∣ disk.blockSize
  rw [hsizes.sectorSize_eq, hsizes.blockSize_eq] at hle ⊢
  exact Nat.pow_dvd_pow 2 ((Nat.pow_le_pow_iff_right (by decide)).1 hle)

/-- A scan without a stride goes by sectors, and so does one with a stride of zero. -/
theorem exists_scan (hopen : (detect image mode).outcome = .ok volume)
    (hstride : stride = none ∨ stride = some 0) :
    ∃ scan, (volume.scan stride).outcome = .ok scan ∧ scan.BySectors image volume.sb := by
  have hreader : volume.reader = ⟨image, volume.sb.blockSize⟩ := (detect_ok hopen).2.1
  have hwhich : volume.scanStride stride = volume.sb.sectorSize := by
    rcases hstride with rfl | rfl <;> rfl
  refine ⟨_, rfl, ?_⟩
  rw [hwhich, hreader]
  have hblock : max volume.sb.blockSize 1 = volume.sb.blockSize :=
    Nat.max_eq_left (blockSize_pos hopen)
  refine ⟨rfl, hblock, Nat.max_eq_left (sectorSize_pos hopen), ?_⟩
  exact congrArg _ hblock

theorem first_block_le (hopen : (detect image mode).outcome = .ok volume) {agno : Nat}
    (hagno : agno < volume.sb.agCount) :
    (agno * volume.sb.agBlocks + 1) * volume.sb.blockSize ≤ image.size := by
  obtain ⟨_, _, _, hfitted⟩ := fitted_of_detect hopen
  have hlt : agno * volume.sb.agBlocks * volume.sb.blockSize <
      volume.sb.blocks * volume.sb.blockSize := hfitted.groupOffset_lt agno hagno
  exact block_le_size hopen (Nat.lt_of_mul_lt_mul_right hlt)

/-- A scan of an opened filesystem whose blocks have room for the headers of a group fails nowhere,
and reports the headers and the roots of every group that was loaded. -/
theorem scan_sees (hopen : (detect image .strict).outcome = .ok volume)
    (hroom : 4 * volume.sb.sectorSize ≤ volume.sb.blockSize)
    (hstride : stride = none ∨ stride = some 0) :
    ∃ scan hits, (volume.scan stride).outcome = .ok scan ∧ scan.toList = hits.map .ok ∧
      (∀ count, scan.take count = (hits.map .ok).take count) ∧
      volume.groups.length = volume.sb.agCount ∧
      ∀ (agno : Nat) (group : Group), volume.groups[agno]? = some group →
        group.SeenIn image volume.sb agno hits := by
  obtain ⟨scan, hscan, hsectors⟩ := exists_scan hopen hstride
  obtain ⟨hits, hitems, hlists⟩ := hsectors.exists_toList_eq
  obtain ⟨_, hreader, _, hgroups⟩ := detect_ok hopen
  obtain ⟨hlen, hload⟩ := Group.loadAll_ok hgroups
  refine ⟨scan, hits, hscan, hitems, ?_, hlen, ?_⟩
  · intro count
    rw [Scan.take_eq, hitems]
  · intro agno group hsome
    have hloading := Group.load_ok (hload agno group hsome)
    rw [hreader] at hloading
    have hagno : agno < volume.sb.agCount := by
      rw [← hlen]
      exact (List.getElem?_eq_some_iff.1 hsome).1
    have hdvd := sectorSize_dvd hopen (by omega)
    have hword := blockSize_word hopen
    have hloaded := loadedFrom_of_strict hopen hagno
      (hloading.loadedFrom (blockSize_pos hopen) hword (sectorSize_pos hopen))
    exact hloaded.seenIn (hloading.intact (blockSize_pos hopen) hword) hsectors hlists hdvd hroom
      (first_block_le hopen hagno)

/-- A filesystem of version 5 of two groups with the same contents, five blocks of four sectors each:
the headers in the first block, and the roots of four trees in the others.  The blocks of the trees
of free and of shared blocks each hold a log record too. -/
def loggedImage : Image where
  size := 20480
  byteAt := fun position =>
    (([ (0x00, 0x58), (0x01, 0x46), (0x02, 0x53), (0x03, 0x42), (0x06, 8), (0x0F, 10), (0x57, 5),
        (0x5B, 2), (0x65, 5), (0x66, 2), (0x68, 1), (0x6B, 2), (0x78, 11), (0x79, 9), (0x7A, 8),
        (0x7B, 1), (0xD7, 5),
        (512, 0x58), (513, 0x41), (514, 0x47), (515, 0x46), (531, 1), (603, 2),
        (1024, 0x58), (1025, 0x41), (1026, 0x47), (1027, 0x49), (1047, 3), (1355, 4),
        (1536, 0x58), (1537, 0x41), (1538, 0x46), (1539, 0x4C),
        (2048, 0x41), (2049, 0x42), (2050, 0x33), (2051, 0x42),
        (2560, 0xFE), (2561, 0xED), (2562, 0xBA), (2563, 0xBE),
        (4096, 0x52), (4097, 0x33), (4098, 0x46), (4099, 0x43),
        (4608, 0xFE), (4609, 0xED), (4610, 0xBA), (4611, 0xBE),
        (6144, 0x49), (6145, 0x41), (6146, 0x42), (6147, 0x33),
        (8192, 0x46), (8193, 0x49), (8194, 0x42), (8195, 0x33) ]
      : List (Nat × UInt8)).lookup (position % 10240)).getD 0
  lastSought := none

/-- A strict run opens it, and a scan sees its two groups. -/
theorem loggedImage_seen :
    ∃ volume, (detect loggedImage .strict).outcome = .ok volume ∧
      4 * volume.sb.sectorSize ≤ volume.sb.blockSize ∧
      volume.groups.map (fun group => TreeKind.all.map group.root) =
        [[1, 0, 3, 4, 2], [1, 0, 3, 4, 2]] ∧
      ∃ scan hits, (volume.scan none).outcome = .ok scan ∧ scan.toList = hits.map .ok ∧
        ∀ (agno : Nat) (group : Group), volume.groups[agno]? = some group →
          group.SeenIn loggedImage volume.sb agno hits := by
  have hopens : ((detect loggedImage .strict).outcome.toOption.map fun volume =>
      (volume.sb.sectorSize, volume.sb.blockSize,
        volume.groups.map fun group => TreeKind.all.map group.root)) =
      some (512, 2048, [[1, 0, 3, 4, 2], [1, 0, 3, 4, 2]]) := by decide +kernel
  obtain ⟨volume, hopen, hfacts⟩ := Except.exists_of_toOption_map hopens
  obtain ⟨hsector, hrest⟩ := Prod.mk.inj hfacts
  obtain ⟨hblock, hroots⟩ := Prod.mk.inj hrest
  have hroom : 4 * volume.sb.sectorSize ≤ volume.sb.blockSize := by omega
  obtain ⟨scan, hits, hscan, hitems, _, _, hseen⟩ :=
    scan_sees hopen hroom (.inl (rfl : none = none))
  exact ⟨volume, hopen, hroom, hroots, scan, hits, hscan, hitems, hseen⟩

end Volume

end Xfs

end DiskScope
