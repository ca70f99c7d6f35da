/-
  DiskScope/Proofs/Xfs/FieldTables.lean --- what is displayed is what is used.

  WHAT THIS FILE IS FOR.  The layout of a header is written down twice: once in its decoder, and
  once in the table by which it is shown.  If the two came apart in an offset, a width or a
  name, one number would be displayed and another one acted on.  Here the numbers of a
  decoded header are laid out as texts under the names of the table (`shown`), and the
  table is found to give the same rows from the same bytes.

  WHAT IS KEPT.  A superblock is shown from the bytes that it has kept.  These are as many as
  its tables reach over, so no field is ever shown as truncated, and the text is that of the
  whole buffer.

  MAIN STATEMENTS.

      shows_of_rows            rows of a table under names that are all different
      ofBytes_eq_ok_iff        reading a superblock, in one step
      display_ne_truncated     no value reads like a truncated one
      displayed_as_decoded     superblocks and the headers of groups
-/
import DiskScope.Proofs.Bytes.Agreement
import DiskScope.Proofs.Text.Numeral
import DiskScope.Proofs.Xfs.Rendering

set_option autoImplicit false

namespace DiskScope

open Text

/-! ## Texts of values -/

namespace Text

theorem exists_begins_numeral (base : Nat) (hbase : 1 < base) (n : Nat) :
    ∃ d < base, Begins (Nat.digitChar d) (numeral base n) := by
  have hhead := List.head?_eq_some_head (Nat.toDigits_ne_nil (n := n) (b := base))
  obtain ⟨d, hlt, hdigit⟩ := digit_of_mem_toDigits hbase (List.mem_of_head? hhead)
  exact ⟨d, hlt, by rw [Begins, numeral, String.toList_ofList, hhead, hdigit]⟩

theorem exists_begins_hexPadded (width n : Nat) :
    ∃ d < 16, Begins (Nat.digitChar d) (hexPadded width n) := by
  obtain ⟨d, hlt, hbegins⟩ := exists_begins_numeral 16 (by decide) n
  rw [hexPadded, padLeftWith]
  cases width - (hexDigits n).length with
  | zero =>
    refine ⟨d, hlt, ?_⟩
    rw [List.replicate_zero, String.ofList_nil, String.empty_append]
    exact hbegins
  | succ more =>
    refine ⟨0, by decide, Begins.append ?_ _⟩
    rw [Begins, String.toList_ofList, List.replicate_succ, List.head?_cons]
    rfl

/-- An identifier begins with a digit of its first byte. -/
theorem exists_begins_uuid {data : Bytes} (hlen : data.length = 16) :
    ∃ d < 16, Begins (Nat.digitChar d) (uuid data) := by
  have hpos : 0 < data.length := Nat.lt_of_lt_of_eq (by decide) hlen.symm
  obtain ⟨first, rest, rfl⟩ := List.exists_cons_of_length_pos hpos
  obtain ⟨d, hlt, hbegins⟩ := exists_begins_hexPadded 2 first.toNat
  refine ⟨d, hlt, ?_⟩
  have hgroup : Begins (Nat.digitChar d) (bytesHex (Bytes.slice (first :: rest) 0 4)) := by
    rw [Bytes.slice, List.drop_zero, List.take_succ_cons, bytesHex, List.map_cons, String.join_cons]
    exact hbegins.append _
  rw [uuid, if_pos hlen]
  exact (hgroup.append "-").append _

end Text

/-- No value reads like a field that is cut off. -/
theorem Encoding.display_ne_truncated {encoding : Encoding} {raw : Bytes}
    (hwidth : raw.length = encoding.width) : encoding.display raw ≠ "<truncated>" := by
  have hmark : Begins '<' "<truncated>" := by decide
  have hdigit : ∀ d < 16, Nat.digitChar d ≠ '<' := by decide
  have hother : ∃ letter, letter ≠ '<' ∧ Begins letter (encoding.display raw) := by
    cases encoding with
    | number width =>
      obtain ⟨d, hlt, hbegins⟩ := exists_begins_numeral 10 (by decide) raw.toNatBE
      exact ⟨_, hdigit d (by omega), hbegins⟩
    | word width =>
      have hprefix : Begins '0' "0x" := by decide
      exact ⟨'0', by decide, hprefix.append _⟩
    | uuid =>
      obtain ⟨d, hlt, hbegins⟩ := exists_begins_uuid hwidth
      exact ⟨_, hdigit d hlt, hbegins⟩
    | text width =>
      have hquote : Begins '"' "\"" := by decide
      exact ⟨'"', by decide, (hquote.append _).append _⟩
  intro heq
  obtain ⟨letter, hne, hbegins⟩ := hother
  rw [heq] at hbegins
  exact hne (hbegins.eq hmark)

/-! ## Tables -/

namespace Field

variable {fields : List Field} {field : Field} {data other : Bytes} {limit : Nat}

/-- Where a field ends. -/
def stop (field : Field) : Nat := field.offset + field.encoding.width

/-- The table has one field of this name, and shows it as `text`. -/
def Shows (fields : List Field) (data : Bytes) (name text : String) : Prop :=
  ∃ field, fields.filter (·.name = name) = [field] ∧ field.format? data = some text

/-- The names and texts of the fields that have one of `names`, in the order of the table. -/
def rows (fields : List Field) (names : List String) (data : Bytes) : List (String × String) :=
  (fields.filter (·.name ∈ names)).map fun field =>
    (field.name, field.encoding.display (data.slice field.offset field.encoding.width))

theorem format?_of_le (h : field.stop ≤ data.length) :
    field.format? data =
      some (field.encoding.display (data.slice field.offset field.encoding.width)) :=
  if_pos h

/-- Where no two fields have one name, a field is the only one of its name. -/
theorem filter_name_eq (hnames : (fields.map name).Nodup) (hmem : field ∈ fields) :
    fields.filter (·.name = field.name) = [field] := by
  -- The name of the first field is none of the rest, so one of the two parts is filtered away.
  induction fields with
  | nil => cases hmem
  | cons first rest ih =>
    obtain ⟨hfirst, hrest⟩ := List.nodup_cons.1 hnames
    rcases List.mem_cons.1 hmem with rfl | hmem
    · have hnone : rest.filter (·.name = field.name) = [] := by
        refine List.filter_eq_nil_iff.2 fun other hother hsame => hfirst ?_
        rw [← of_decide_eq_true hsame]
        exact List.mem_map_of_mem hother
      rw [List.filter_cons_of_pos (by simp), hnone]
    · have hne : ¬ first.name = field.name := fun hsame =>
        hfirst (hsame ▸ List.mem_map_of_mem hmem)
      rw [List.filter_cons_of_neg (by simpa using hne), ih hrest hmem]

theorem shows_of_mem (hnames : (fields.map name).Nodup) (hmem : field ∈ fields)
    (hend : field.stop ≤ data.length) :
    Shows fields data field.name
      (field.encoding.display (data.slice field.offset field.encoding.width)) :=
  ⟨field, filter_name_eq hnames hmem, format?_of_le hend⟩

/-- Texts that are rows of a table are shown by it. -/
theorem shows_of_rows {texts : List (String × String)} (names : List String)
    (hnames : (fields.map name).Nodup) (hrows : texts = rows fields names data)
    (hend : ∀ field ∈ fields, field.name ∈ names → field.stop ≤ data.length) :
    ∀ entry ∈ texts, Shows fields data entry.1 entry.2 := by
  intro entry hentry
  rw [hrows] at hentry
  obtain ⟨field, hfield, rfl⟩ := List.mem_map.1 hentry
  obtain ⟨hmem, hname⟩ := List.mem_filter.1 hfield
  exact shows_of_mem hnames hmem (hend field hmem (of_decide_eq_true hname))

theorem format?_eq_of_agree (h : Bytes.AgreeTo limit data other) (hend : field.stop ≤ limit) :
    field.format? data = field.format? other := by
  rw [format?_of_le (Nat.le_trans hend h.le_left), format?_of_le (Nat.le_trans hend h.le_right),
    h.slice_eq hend]

/-- A field that both buffers hold is shown alike, and not as truncated. -/
theorem exists_format?_of_agree (h : Bytes.AgreeTo limit data other) (hend : field.stop ≤ limit) :
    ∃ text, field.format? data = some text ∧ field.format? other = some text
      ∧ text ≠ "<truncated>" := by
  have hleft : field.stop ≤ data.length := Nat.le_trans hend h.le_left
  refine ⟨_, format?_of_le hleft, ?_,
    Encoding.display_ne_truncated (Bytes.length_slice_of_le hleft)⟩
  rw [← format?_eq_of_agree h hend, format?_of_le hleft]

theorem render_eq_of_agree (h : Bytes.AgreeTo limit data other)
    (hend : ∀ field ∈ fields, field.stop ≤ limit) (title : String) :
    render title fields data = render title fields other := by
  have hline : ∀ field ∈ fields,
      line (column fields) data field = line (column fields) other field := fun field hmem => by
    rw [line, line, format?_eq_of_agree h (hend field hmem)]
  rw [render, render, List.map_congr_left hline]

end Field

namespace Xfs

variable {data : Bytes}

/-! ## Superblocks -/

namespace Superblock

/-- The superblock whose fields stand in `data`, with no check of their length. -/
def assemble (data : Bytes) : Superblock :=
  let v5Word (offset : Nat) : Nat := if versionOf (data.be16 0x64) = 5 then data.be32 offset else 0
  { magic := data.be32 0x00
    blockSize := data.be32 0x04
    blocks := data.be64 0x08
    uuid := data.slice 0x20 16
    rootIno := data.be64 0x38
    agBlocks := data.be32 0x54
    agCount := data.be32 0x58
    versionWord := data.be16 0x64
    sectorSize := data.be16 0x66
    inodeSize := data.be16 0x68
    inodesPerBlock := data.be16 0x6A
    label := Utf8.decode (data.slice 0x6C 12).untilZero
    blockLog := data.byteAt 0x78
    sectorLog := data.byteAt 0x79
    inodeLog := data.byteAt 0x7A
    inodesPerBlockLog := data.byteAt 0x7B
    agBlockLog := data.byteAt 0x7C
    inodeCount := data.be64 0x80
    freeInodes := data.be64 0x88
    freeBlocks := data.be64 0x90
    features2 := data.be32 0xC8
    compat := v5Word 0xD0
    roCompat := v5Word 0xD4
    incompat := v5Word 0xD8
    logIncompat := v5Word 0xDC
    raw := data.take v5Size }

theorem ofBytes_of_le (hbase : 0xD0 ≤ data.length)
    (hlong : data.be16 0x64 % 16 = 5 → 0x108 ≤ data.length) :
    ofBytes data = .ok (assemble data) := by
  have hbase : baseSize ≤ data.length := hbase
  rw [ofBytes, Inode.require_bind_of_le hbase]
  by_cases hversion : versionOf (data.be16 0x64) = 5
  · have hlong : v5Size ≤ data.length := hlong hversion
    simp only [if_pos hversion, Inode.require_bind_of_le hlong, assemble]
    rfl
  · simp only [if_neg hversion, assemble]
    rfl

theorem ofBytes_eq_ok_iff {sb : Superblock} :
    ofBytes data = .ok sb ↔ 0xD0 ≤ data.length ∧
      (data.be16 0x64 % 16 = 5 → 0x108 ≤ data.length) ∧ sb = assemble data := by
  constructor
  · intro h
    have hbase : 0xD0 ≤ data.length := Nat.not_lt.1 fun hshort => by
      rw [ofBytes_of_short hshort] at h
      cases h
    have hlong : data.be16 0x64 % 16 = 5 → 0x108 ≤ data.length := fun hversion =>
      Nat.not_lt.1 fun hshort => by
        rw [ofBytes_of_short_v5 hbase hshort hversion] at h
        cases h
    rw [ofBytes_of_le hbase hlong] at h
    exact ⟨hbase, hlong, (Except.ok.inj h).symm⟩
  · rintro ⟨hbase, hlong, rfl⟩
    exact ofBytes_of_le hbase hlong

/-- The numbers and names that every superblock has, as the table shows them. -/
def shown (sb : Superblock) : List (String × String) :=
  [ ("magicnum", hexWide 8 sb.magic),
    ("blocksize", decimal sb.blockSize),
    ("dblocks", decimal sb.blocks),
    ("uuid", Text.uuid sb.uuid),
    ("rootino", decimal sb.rootIno),
    ("agblocks", decimal sb.agBlocks),
    ("agcount", decimal sb.agCount),
    ("versionnum", hexWide 4 sb.versionWord),
    ("sectsize", decimal sb.sectorSize),
    ("inodesize", decimal sb.inodeSize),
    ("inopblock", decimal sb.inodesPerBlock),
    ("fname", "\"" ++ sb.label ++ "\""),
    ("blocklog", decimal sb.blockLog),
    ("sectlog", decimal sb.sectorLog),
    ("inodelog", decimal sb.inodeLog),
    ("inopblog", decimal sb.inodesPerBlockLog),
    ("agblklog", decimal sb.agBlockLog),
    ("icount", decimal sb.inodeCount),
    ("ifree", decimal sb.freeInodes),
    ("fdblocks", decimal sb.freeBlocks),
    ("features2", hexWide 8 sb.features2) ]

/-- The words that one of version 5 has besides. -/
def shownV5 (sb : Superblock) : List (String × String) :=
  [ ("features_compat", hexWide 8 sb.compat),
    ("features_ro_compat", hexWide 8 sb.roCompat),
    ("features_incompat", hexWide 8 sb.incompat),
    ("features_log_incompat", hexWide 8 sb.logIncompat) ]

/-- The fields of the tables by which a superblock is shown. -/
def tableFields (sb : Superblock) : List Field :=
  superblockFields ++ if sb.isV5 then superblockV5Fields else []

theorem shown_assemble : (assemble data).shown =
    Field.rows superblockFields ((assemble data).shown.map Prod.fst) data := by
  -- With single bytes as numbers of width one, both sides show the same slices.
  simp only [shown, assemble, Bytes.byteAt_eq_beAt]
  rfl

theorem shownV5_assemble (h : (assemble data).isV5 = true) : (assemble data).shownV5 =
    Field.rows superblockV5Fields ((assemble data).shownV5.map Prod.fst) data := by
  have hversion : versionOf (data.be16 0x64) = 5 := of_decide_eq_true h
  simp only [shownV5, assemble, if_pos hversion]
  rfl

theorem stop_le_of_mem : ∀ field ∈ superblockFields, field.stop ≤ 0xD0 := by decide

theorem stop_le_of_mem_v5 : ∀ field ∈ superblockV5Fields, field.stop ≤ 0x108 := by decide

/-- The bytes that are kept are those of the buffer, as far as any table reaches. -/
theorem agreeTo_raw {limit : Nat} (htables : limit ≤ 0x108) (hdata : limit ≤ data.length) :
    Bytes.AgreeTo limit (assemble data).raw data where
  le_left := by
    rw [assemble, List.length_take]
    exact Nat.le_min.2 ⟨htables, hdata⟩
  le_right := hdata
  take_eq := List.take_take.trans (congrArg (data.take ·) (Nat.min_eq_left htables))

/-- What is shown of the superblock `sb` read from `data`. -/
structure Displayed (sb : Superblock) (data : Bytes) : Prop where
  /-- Each decoded field is the one that the table shows under its name. -/
  shown : ∀ entry ∈ sb.shown, Field.Shows superblockFields data entry.1 entry.2
  /-- So are the feature words of version 5. -/
  shownV5 : sb.isV5 = true →
    ∀ entry ∈ sb.shownV5, Field.Shows superblockV5Fields data entry.1 entry.2
  /-- No more bytes are kept than the tables reach over. -/
  raw_eq : sb.raw = data.take 0x108
  /-- From these every field is shown as from the whole buffer, and never as truncated. -/
  kept : ∀ field ∈ sb.tableFields, ∃ text,
    field.format? sb.raw = some text ∧ field.format? data = some text ∧ text ≠ "<truncated>"
  /-- The text of the superblock is the one of the whole buffer. -/
  render_eq : sb.render =
    Field.render "superblock" superblockFields data
      ++ (if sb.isV5 then Field.render "v5 fields" superblockV5Fields data else "")
      ++ lines sb.featureLines

theorem displayed_of_ofBytes {sb : Superblock} (h : ofBytes data = .ok sb) :
    sb.Displayed data := by
  obtain ⟨hbase, hlong, rfl⟩ := ofBytes_eq_ok_iff.1 h
  have hshort := agreeTo_raw (by decide) hbase
  have hv5 : (assemble data).isV5 = true → Bytes.AgreeTo 0x108 (assemble data).raw data :=
    fun h5 => agreeTo_raw (Nat.le_refl _) (hlong (of_decide_eq_true h5))
  refine
    { shown := Field.shows_of_rows _ (by decide +kernel) shown_assemble fun field hmem _ =>
        Nat.le_trans (stop_le_of_mem field hmem) hbase
      shownV5 := fun h5 =>
        Field.shows_of_rows _ (by decide +kernel) (shownV5_assemble h5) fun field hmem _ =>
          Nat.le_trans (stop_le_of_mem_v5 field hmem) (hv5 h5).le_right
      raw_eq := rfl
      kept := fun field hmem => ?_
      render_eq := ?_ }
  · rcases List.mem_append.1 hmem with hmem | hmem
    · exact Field.exists_format?_of_agree hshort (stop_le_of_mem field hmem)
    · split at hmem
      · rename_i h5
        exact Field.exists_format?_of_agree (hv5 h5) (stop_le_of_mem_v5 field hmem)
      · cases hmem
  · rw [render, Field.render_eq_of_agree hshort stop_le_of_mem]
    split
    · rename_i h5
      rw [Field.render_eq_of_agree (hv5 h5) stop_le_of_mem_v5]
    · rfl

end Superblock

/-! ## Headers of groups -/

/-- The numbers of a free-space header, as the table shows them. -/
def FreeHeader.shown (header : FreeHeader) : List (String × String) :=
  [ ("magicnum", hexWide 8 header.magic),
    ("seqno", decimal header.sequence),
    ("length", decimal header.length),
    ("bno_root", decimal header.byBlockRoot),
    ("cnt_root", decimal header.bySizeRoot),
    ("rmap_root", decimal header.reverseMapRoot),
    ("bno_level", decimal header.byBlockLevel),
    ("cnt_level", decimal header.bySizeLevel),
    ("flfirst", decimal header.listFirst),
    ("fllast", decimal header.listLast),
    ("flcount", decimal header.listCount),
    ("freeblks", decimal header.freeBlocks),
    ("longest", decimal header.longest),
    ("refcount_root", decimal header.refcountRoot) ]

theorem FreeHeader.shows_of_ofBytes {header : FreeHeader} (h : ofBytes data = .ok header) :
    ∀ entry ∈ header.shown, Field.Shows agfFields data entry.1 entry.2 := by
  obtain ⟨_, hsize, hheader⟩ := Except.bind_eq_ok.1 h
  have hsize : 0x60 ≤ data.length := Bytes.require_eq_ok_iff.1 hsize
  obtain rfl := Except.ok.inj hheader
  have hend : ∀ field ∈ agfFields, field.name ∈ zero.shown.map Prod.fst → field.stop ≤ 0x60 := by
    decide +kernel
  exact Field.shows_of_rows (zero.shown.map Prod.fst) (by decide +kernel) rfl
    fun field hmem hname => Nat.le_trans (hend field hmem hname) hsize

/-- The numbers of an inode header, without the root that only version 5 has. -/
def InodeHeader.shown (header : InodeHeader) : List (String × String) :=
  [ ("magicnum", hexWide 8 header.magic),
    ("seqno", decimal header.sequence),
    ("length", decimal header.length),
    ("count", decimal header.count),
    ("root", decimal header.root),
    ("level", decimal header.level),
    ("freecount", decimal header.freeCount),
    ("newino", decimal header.newestIno),
    ("dirino", decimal header.directoryIno) ]

/-- What is shown of the inode header read from `data`. -/
structure InodeHeader.Displayed (header : InodeHeader) (data : Bytes) (isV5 : Bool) : Prop where
  /-- Each decoded field is the one that the table shows under its name. -/
  shown : ∀ entry ∈ header.shown, Field.Shows agiFields data entry.1 entry.2
  /-- So is the root of the tree of free inodes, where version 5 and a long enough sector have
  one. -/
  shownRoot : isV5 = true → 0x14C ≤ data.length →
    Field.Shows agiFields data "free_root" (decimal header.freeRoot)

theorem InodeHeader.displayed_of_ofBytes {isV5 : Bool} {header : InodeHeader}
    (h : ofBytes data isV5 = .ok header) : header.Displayed data isV5 := by
  obtain ⟨_, hsize, hheader⟩ := Except.bind_eq_ok.1 h
  have hsize : 0x28 ≤ data.length := Bytes.require_eq_ok_iff.1 hsize
  obtain rfl := Except.ok.inj hheader
  have hnames : (agiFields.map Field.name).Nodup := by decide +kernel
  have hend : ∀ field ∈ agiFields, field.name ∈ zero.shown.map Prod.fst → field.stop ≤ 0x28 := by
    decide +kernel
  refine { shown := ?_, shownRoot := fun h5 hlong => ?_ }
  · exact Field.shows_of_rows (zero.shown.map Prod.fst) hnames rfl
      fun field hmem hname => Nat.le_trans (hend field hmem hname) hsize
  · have hroot : isV5 = true ∧ freeRootOffset + 4 ≤ data.length := ⟨h5, hlong⟩
    rw [if_pos hroot]
    have hmem : (⟨"free_root", 0x148, .number 4⟩ : Field) ∈ agiFields := by decide
    exact Field.shows_of_mem hnames hmem hlong

/-! ## Both layouts -/

/-- What a decoder finds in a field is what the table of the structure shows there. -/
theorem displayed_as_decoded (data : Bytes) :
    (∀ sb, Superblock.ofBytes data = .ok sb → sb.Displayed data) ∧
    (∀ header, FreeHeader.ofBytes data = .ok header →
      ∀ entry ∈ header.shown, Field.Shows agfFields data entry.1 entry.2) ∧
    ∀ isV5 header, InodeHeader.ofBytes data isV5 = .ok header → header.Displayed data isV5 :=
  ⟨fun _ => Superblock.displayed_of_ofBytes, fun _ => FreeHeader.shows_of_ofBytes,
    fun _ _ => InodeHeader.displayed_of_ofBytes⟩

/-- Bytes that count up, in which no two fields are alike. -/
def countedBytes : Bytes := (List.range 0x150).map UInt8.ofNat

/-- They are a superblock of version 5 and both headers, with these among what is shown. -/
theorem countedBytes_displayed :
    ∃ sb freeHeader inodeHeader, Superblock.ofBytes countedBytes = .ok sb ∧
      FreeHeader.ofBytes countedBytes = .ok freeHeader ∧
      InodeHeader.ofBytes countedBytes true = .ok inodeHeader ∧
      Field.Shows superblockFields countedBytes "fname" "\"lmnopqrstuvw\"" ∧
      Field.Shows superblockV5Fields countedBytes "features_incompat" "0xd8d9dadb" ∧
      Field.Shows agfFields countedBytes "longest" "943274555" ∧
      Field.Shows agiFields countedBytes "free_root" "1212762699" ∧
      ∀ field ∈ superblockFields ++ superblockV5Fields, ∃ text,
        field.format? (countedBytes.take 0x108) = some text ∧
          field.format? countedBytes = some text ∧ text ≠ "<truncated>" := by
  obtain ⟨hsb, hfree, hinode⟩ := displayed_as_decoded countedBytes
  have hreads : Superblock.ofBytes countedBytes = .ok (Superblock.assemble countedBytes) :=
    Superblock.ofBytes_of_le (by decide +kernel) (by decide +kernel)
  have hfreeReads : FreeHeader.ofBytes countedBytes = .ok
      ⟨0x00010203, 0x08090A0B, 0x0C0D0E0F, 0x10111213, 0x14151617, 0x18191A1B, 0x1C1D1E1F,
        0x20212223, 0x28292A2B, 0x2C2D2E2F, 0x30313233, 0x34353637, 0x38393A3B, 0x58595A5B⟩ := by
    decide +kernel
  have hinodeReads : InodeHeader.ofBytes countedBytes true = .ok
      ⟨0x00010203, 0x08090A0B, 0x0C0D0E0F, 0x10111213, 0x14151617, 0x18191A1B, 0x1C1D1E1F,
        0x20212223, 0x24252627, 0x48494A4B⟩ := by
    decide +kernel
  have h5 : (Superblock.assemble countedBytes).isV5 = true := by decide +kernel
  have hshown := hsb _ hreads
  have hkept := hshown.kept
  rw [Superblock.tableFields, if_pos h5] at hkept
  refine ⟨_, _, _, hreads, hfreeReads, hinodeReads, ?_, ?_, ?_, ?_, hkept⟩
  · exact hshown.shown ("fname", _) (by decide +kernel)
  · exact hshown.shownV5 h5 ("features_incompat", _) (by decide +kernel)
  · exact hfree _ hfreeReads ("longest", _) (by decide +kernel)
  · exact (hinode true _ hinodeReads).shownRoot rfl (by decide +kernel)

end Xfs

end DiskScope
