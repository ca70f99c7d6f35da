/-
  DiskScope/Proofs/Xfs/DirectoryCodec.lean --- inline directories are read as they are packed.

  WHAT THIS FILE IS FOR.  An inline directory has no padding and no checksum: every number
  stands where the lengths in front of it put it.  Here it is shown that reading finds a
  directory in a fork exactly where its packed form stands at the fork's beginning, and
  that a fork which ends before it does is refused as cut off, wherever it ends.

  HOW.  Each part of the reader has one lemma, an equivalence: it answers with a value
  exactly when the value fits its fields and its bytes stand at the position.  The lemma of
  a whole is put together from those of its parts by `Bytes.holds_append`.

  MAIN STATEMENTS.

      ofBytes_eq_ok_iff          a directory is read where its packed form begins the fork
      cutOff_ofBytes             what is not read is cut off
      reading_undoes_packing     both directions, and every place to cut at
-/
import DiskScope.Proofs.Bytes.Holds
import DiskScope.Proofs.Text.Utf8
import DiskScope.Proofs.Traced.Outcome
import DiskScope.Xfs.Directory

set_option autoImplicit false

namespace DiskScope.Xfs

open Text

/-! ## What can be packed -/

/-- A file type is there exactly if the filesystem stores it, and fits its byte. -/
def TypeFits : (hasType : Bool) → Option Nat → Prop
  | false, none => True
  | true, some code => code < 256
  | _, _ => False

/-- The fields of an entry fit their bytes. -/
structure DirectoryEntry.Packable (entry : DirectoryEntry) (hasType : Bool) (inoSize : Nat) :
    Prop where
  name_lt : entry.rawName.length < 256
  offset_lt : entry.offset < 1 <<< (8 * 2)
  fileType_fits : TypeFits hasType entry.fileType
  ino_lt : entry.ino < 1 <<< (8 * inoSize)

namespace InlineDirectory

/-- The fields of a directory fit their bytes, and its count is that of its entries. -/
structure Packable (dir : InlineDirectory) (hasType : Bool) : Prop where
  count_eq : dir.count = dir.entries.length
  count_lt : dir.count < 256
  wideCount_lt : dir.wideCount < 256
  parent_lt : dir.parent < 1 <<< (8 * inoSize dir.wideCount)
  entries : ∀ entry ∈ dir.entries, entry.Packable hasType (inoSize dir.wideCount)

variable {fork : Bytes} {hasType : Bool} {inoSize pos : Nat}

/-! ## Reading what is there -/

theorem readIno_eq_ok_iff {ino : Nat} :
    readIno fork pos inoSize = .ok ino ↔
      fork.Holds pos (Bytes.ofNatBE inoSize ino) ∧ ino < 1 <<< (8 * inoSize) := by
  rw [readIno, Except.bind_eq_ok, Bytes.holds_number]
  constructor
  · rintro ⟨_, hlen, hread⟩
    exact ⟨Bytes.require_eq_ok_iff.1 hlen, Except.ok.inj hread⟩
  · rintro ⟨hlen, rfl⟩
    exact ⟨(), Bytes.require_eq_ok_iff.2 hlen, rfl⟩

/-- The bytes of a file type: one, or none. -/
def typeBytes (fileType : Option Nat) : Bytes := fileType.toList.map UInt8.ofNat

theorem readFileType_eq_ok_iff (hpos : pos ≤ fork.length) {fileType : Option Nat} {next : Nat} :
    readFileType fork hasType pos = .ok (fileType, next) ↔
      (fork.Holds pos (typeBytes fileType) ∧ TypeFits hasType fileType) ∧
        next = pos + (typeBytes fileType).length := by
  cases hasType with
  | false =>
    cases fileType with
    | none =>
      simp [readFileType, typeBytes, TypeFits, Bytes.holds_nil, hpos, pure, Except.pure, eq_comm]
    | some code => simp [readFileType, TypeFits, pure, Except.pure]
  | true =>
    cases fileType with
    | none => simp [readFileType, TypeFits, Except.bind_eq_ok, pure, Except.pure]
    | some code =>
      have hbyte : fork.Holds pos (typeBytes (some code)) ∧ TypeFits true (some code) ↔ _ :=
        Bytes.holds_byte
      rw [readFileType, if_pos rfl, Except.bind_eq_ok, hbyte]
      constructor
      · rintro ⟨_, hlen, hread⟩
        obtain ⟨hcode, hnext⟩ := Prod.mk.inj (Except.ok.inj hread)
        exact ⟨⟨Bytes.require_eq_ok_iff.1 hlen, Option.some.inj hcode⟩, hnext.symm⟩
      · rintro ⟨⟨hlen, rfl⟩, rfl⟩
        exact ⟨(), Bytes.require_eq_ok_iff.2 hlen, rfl⟩

theorem holds_encodeEntry {entry : DirectoryEntry} :
    fork.Holds pos (encodeEntry inoSize entry) ↔
      fork.Holds pos [UInt8.ofNat entry.rawName.length] ∧
      fork.Holds (pos + 1) (Bytes.ofNatBE 2 entry.offset) ∧
      fork.Holds (pos + 3) entry.rawName ∧
      fork.Holds (pos + 3 + entry.rawName.length) (typeBytes entry.fileType) ∧
      fork.Holds (pos + 3 + entry.rawName.length + (typeBytes entry.fileType).length)
        (Bytes.ofNatBE inoSize entry.ino) := by
  rw [encodeEntry, ← List.singleton_append, ← typeBytes, Bytes.holds_append, Bytes.holds_append,
    Bytes.holds_append, Bytes.holds_append]
  simp only [List.length_append, List.length_singleton, Bytes.length_ofNatBE, and_assoc,
    ← Nat.add_assoc, Nat.reduceAdd]

theorem length_encodeEntry (inoSize : Nat) (entry : DirectoryEntry) :
    (encodeEntry inoSize entry).length =
      3 + entry.rawName.length + (typeBytes entry.fileType).length + inoSize := by
  simp only [encodeEntry, typeBytes, List.length_append, List.length_cons, Bytes.length_ofNatBE]

/-- An entry is read where its packed form stands. -/
theorem readEntry_eq_ok_iff {entry : DirectoryEntry} {next : Nat} :
    readEntry fork hasType inoSize pos = .ok (entry, next) ↔
      (fork.Holds pos (encodeEntry inoSize entry) ∧ entry.Packable hasType inoSize) ∧
        next = pos + (encodeEntry inoSize entry).length := by
  rw [readEntry, Except.bind_eq_ok, holds_encodeEntry, length_encodeEntry]
  constructor
  · rintro ⟨_, hhead, hread⟩
    obtain ⟨_, hname, hread⟩ := Except.bind_eq_ok.1 hread
    have hend := Bytes.require_eq_ok_iff.1 hname
    obtain ⟨⟨fileType, afterType⟩, htype, hread⟩ := Except.bind_eq_ok.1 hread
    obtain ⟨ino, hino, hread⟩ := Except.bind_eq_ok.1 hread
    obtain ⟨⟨htypeHolds, htypeFits⟩, rfl⟩ := (readFileType_eq_ok_iff hend).1 htype
    obtain ⟨hinoHolds, hinoFits⟩ := readIno_eq_ok_iff.1 hino
    obtain ⟨rfl, rfl⟩ := Prod.mk.inj (Except.ok.inj hread)
    -- The length byte is that of the name which it cuts out.
    have hlen := Bytes.length_slice_of_le hend
    have hhead := Bytes.require_eq_ok_iff.1 hhead
    obtain ⟨hsize, hsizeFits⟩ := Bytes.holds_byte.2 ⟨show pos + 1 ≤ fork.length by omega, rfl⟩
    obtain ⟨hoffset, hoffsetFits⟩ :=
      Bytes.holds_number.2 ⟨show pos + 1 + 2 ≤ fork.length by omega, rfl⟩
    simp only [hlen]
    refine ⟨⟨⟨hsize, hoffset, Bytes.holds_slice hend, htypeHolds, hinoHolds⟩, ?_⟩, by omega⟩
    exact ⟨hlen.symm ▸ hsizeFits, hoffsetFits, htypeFits, hinoFits⟩
  · rintro ⟨⟨⟨hsize, hoffset, hname, htype, hino⟩, hfits⟩, rfl⟩
    obtain ⟨_, hsize⟩ := Bytes.holds_byte.1 ⟨hsize, hfits.name_lt⟩
    obtain ⟨hhead, hoffset⟩ := Bytes.holds_number.1 ⟨hoffset, hfits.offset_lt⟩
    have htype := (readFileType_eq_ok_iff hname.1).2 ⟨⟨htype, hfits.fileType_fits⟩, rfl⟩
    have hino := readIno_eq_ok_iff.2 ⟨hino, hfits.ino_lt⟩
    refine ⟨(), Bytes.require_eq_ok_iff.2 hhead, ?_⟩
    simp only [hsize, Bytes.be16, hoffset, hname.2]
    refine Except.bind_eq_ok.2 ⟨(), Bytes.require_eq_ok_iff.2 hname.1, ?_⟩
    refine Except.bind_eq_ok.2 ⟨_, htype, ?_⟩
    refine Except.bind_eq_ok.2 ⟨_, hino, ?_⟩
    simp only [pure, Except.pure, Nat.add_assoc]

/-- Entries are read where their packed forms stand in a row. -/
theorem readEntries_eq_ok_iff {count : Nat} (hpos : pos ≤ fork.length)
    {entries : List DirectoryEntry} :
    readEntries fork hasType inoSize count pos = .ok entries ↔
      fork.Holds pos (entries.flatMap (encodeEntry inoSize)) ∧
        (∀ entry ∈ entries, entry.Packable hasType inoSize) ∧ entries.length = count := by
  induction count generalizing pos entries with
  | zero =>
    rw [readEntries, List.length_eq_zero_iff]
    constructor
    · intro h
      obtain rfl := Except.ok.inj h
      exact ⟨Bytes.holds_nil.2 hpos, by simp, rfl⟩
    · rintro ⟨_, _, rfl⟩
      rfl
  | succ count ih =>
    rw [readEntries, Except.bind_eq_ok]
    constructor
    · rintro ⟨⟨entry, next⟩, hentry, hread⟩
      obtain ⟨rest, hrest, hread⟩ := Except.bind_eq_ok.1 hread
      obtain rfl := Except.ok.inj hread
      obtain ⟨⟨hholds, hfits⟩, rfl⟩ := readEntry_eq_ok_iff.1 hentry
      obtain ⟨hrestHolds, hrestFits, rfl⟩ := (ih hholds.1).1 hrest
      rw [List.flatMap_cons, Bytes.holds_append]
      exact ⟨⟨hholds, hrestHolds⟩, List.forall_mem_cons.2 ⟨hfits, hrestFits⟩, rfl⟩
    · rintro ⟨hholds, hfits, hlen⟩
      obtain ⟨entry, rest, rfl⟩ := List.exists_cons_of_length_eq_add_one hlen
      obtain ⟨hfirst, hrestFits⟩ := List.forall_mem_cons.1 hfits
      rw [List.flatMap_cons, Bytes.holds_append] at hholds
      have hrest := (ih hholds.1.1).2 ⟨hholds.2, hrestFits, Nat.succ.inj hlen⟩
      exact ⟨_, readEntry_eq_ok_iff.2 ⟨⟨hholds.1, hfirst⟩, rfl⟩,
        Except.bind_eq_ok.2 ⟨rest, hrest, rfl⟩⟩

theorem holds_encode {dir : InlineDirectory} :
    fork.Holds 0 dir.encode ↔
      fork.Holds 0 [UInt8.ofNat dir.count] ∧
      fork.Holds 1 [UInt8.ofNat dir.wideCount] ∧
      fork.Holds 2 (Bytes.ofNatBE (InlineDirectory.inoSize dir.wideCount) dir.parent) ∧
      fork.Holds (2 + InlineDirectory.inoSize dir.wideCount)
        (dir.entries.flatMap (encodeEntry (InlineDirectory.inoSize dir.wideCount))) := by
  rw [encode, ← List.singleton_append, ← List.singleton_append (x := UInt8.ofNat dir.wideCount),
    List.append_assoc, List.append_assoc, Bytes.holds_append, Bytes.holds_append,
    Bytes.holds_append]
  simp only [List.length_singleton, Bytes.length_ofNatBE, Nat.zero_add, Nat.reduceAdd]

/-- A directory is read where its packed form begins the fork. -/
theorem ofBytes_eq_ok_iff {dir : InlineDirectory} :
    ofBytes fork hasType = .ok dir ↔ dir.encode <+: fork ∧ dir.Packable hasType := by
  rw [ofBytes, Except.bind_eq_ok, ← Bytes.holds_zero_iff, holds_encode]
  constructor
  · rintro ⟨_, hhead, hread⟩
    obtain ⟨parent, hparent, hread⟩ := Except.bind_eq_ok.1 hread
    obtain ⟨entries, hentries, hread⟩ := Except.bind_eq_ok.1 hread
    obtain rfl := Except.ok.inj hread
    obtain ⟨hparentHolds, hparentFits⟩ := readIno_eq_ok_iff.1 hparent
    obtain ⟨hentriesHold, hentriesFit, hlen⟩ := (readEntries_eq_ok_iff (by
      have hend := hparentHolds.1
      rwa [Bytes.length_ofNatBE] at hend)).1 hentries
    have hhead := Bytes.require_eq_ok_iff.1 hhead
    obtain ⟨hcount, hcountFits⟩ := Bytes.holds_byte.2 ⟨show 0 + 1 ≤ fork.length by omega, rfl⟩
    obtain ⟨hwide, hwideFits⟩ := Bytes.holds_byte.2 ⟨show 1 + 1 ≤ fork.length by omega, rfl⟩
    exact ⟨⟨hcount, hwide, hparentHolds, hentriesHold⟩,
      ⟨hlen.symm, hcountFits, hwideFits, hparentFits, hentriesFit⟩⟩
  · rintro ⟨⟨hcount, hwide, hparent, hentries⟩, hfits⟩
    obtain ⟨_, hcount⟩ := Bytes.holds_byte.1 ⟨hcount, hfits.count_lt⟩
    obtain ⟨hhead, hwide⟩ := Bytes.holds_byte.1 ⟨hwide, hfits.wideCount_lt⟩
    have hparent := readIno_eq_ok_iff.2 ⟨hparent, hfits.parent_lt⟩
    have hentries := (readEntries_eq_ok_iff (Nat.le_trans (Nat.le_add_right _ _) hentries.1)).2
      ⟨hentries, hfits.entries, hfits.count_eq.symm⟩
    refine ⟨(), Bytes.require_eq_ok_iff.2 hhead, ?_⟩
    simp only [hcount, hwide]
    refine Except.bind_eq_ok.2 ⟨_, hparent, ?_⟩
    exact Except.bind_eq_ok.2 ⟨_, hentries, rfl⟩

/-! ## Reading what is cut off -/

/-- The run reads a directory in the fork, and can only fail because the fork ends too early. -/
def CutOff {α : Type} (fork : Bytes) (run : Except Fault α) : Prop :=
  ∀ fault, run = .error fault →
    ∃ needed, fork.length < needed ∧ fault = .truncated part needed fork.length

theorem CutOff.of_ok {α : Type} (a : α) : CutOff fork (.ok a) := by
  intro fault h
  cases h

theorem CutOff.require (needed : Nat) : CutOff fork (fork.require part needed) := by
  intro fault h
  rcases Nat.lt_or_ge fork.length needed with hshort | hlong
  · rw [Bytes.require_of_lt hshort] at h
    exact ⟨needed, hshort, (Except.error.inj h).symm⟩
  · rw [Bytes.require_eq_ok_iff.2 hlong] at h
    cases h

theorem CutOff.bind {α β : Type} {first : Except Fault α} {next : α → Except Fault β}
    (h : CutOff fork first) (hnext : ∀ a, CutOff fork (next a)) : CutOff fork (first >>= next) := by
  intro fault hfault
  cases first with
  | error fault' =>
    obtain rfl : fault' = fault := Except.error.inj hfault
    exact h _ rfl
  | ok a => exact hnext a fault hfault

theorem cutOff_readIno : CutOff fork (readIno fork pos inoSize) :=
  (CutOff.require _).bind fun _ => .of_ok _

theorem cutOff_readFileType : CutOff fork (readFileType fork hasType pos) := by
  unfold readFileType
  split
  · exact (CutOff.require _).bind fun _ => .of_ok _
  · exact .of_ok _

theorem cutOff_readEntry : CutOff fork (readEntry fork hasType inoSize pos) :=
  (CutOff.require _).bind fun _ => (CutOff.require _).bind fun _ =>
    cutOff_readFileType.bind fun _ => cutOff_readIno.bind fun _ => .of_ok _

theorem cutOff_readEntries (count : Nat) :
    CutOff fork (readEntries fork hasType inoSize count pos) := by
  induction count generalizing pos with
  | zero => exact .of_ok _
  | succ count ih => exact cutOff_readEntry.bind fun _ => ih.bind fun _ => .of_ok _

/-- A fork that is no directory is cut off. -/
theorem cutOff_ofBytes : CutOff fork (ofBytes fork hasType) :=
  (CutOff.require _).bind fun _ => cutOff_readIno.bind fun _ =>
    (cutOff_readEntries _).bind fun _ => .of_ok _

/-! ## Both directions -/

/-- What follows a packed directory does not matter. -/
theorem ofBytes_encode_append {dir : InlineDirectory} (h : dir.Packable hasType) (rest : Bytes) :
    ofBytes (dir.encode ++ rest) hasType = .ok dir :=
  ofBytes_eq_ok_iff.2 ⟨List.prefix_append _ _, h⟩

/-- A packed directory that is cut anywhere is refused as cut off. -/
theorem ofBytes_of_prefix {dir : InlineDirectory} (h : dir.Packable hasType) {cut : Bytes}
    (hcut : cut <+: dir.encode) (hne : cut ≠ dir.encode) :
    ∃ needed, cut.length < needed ∧
      ofBytes cut hasType = .error (.truncated part needed cut.length) := by
  cases hread : ofBytes cut hasType with
  | ok other =>
    -- What is read in the piece would be read in the whole, and so be the directory itself.
    obtain ⟨hother, hfits⟩ := ofBytes_eq_ok_iff.1 hread
    have hsame := ofBytes_eq_ok_iff.2 ⟨hother.trans hcut, hfits⟩
    have hwhole := ofBytes_eq_ok_iff.2 ⟨List.prefix_refl dir.encode, h⟩
    obtain rfl := Except.ok.inj (hsame.symm.trans hwhole)
    exact absurd (hcut.eq_of_length_le hother.length_le) hne
  | error fault =>
    obtain ⟨needed, hshort, rfl⟩ := cutOff_ofBytes fault hread
    exact ⟨needed, hshort, rfl⟩

/-- A packed directory is read back whatever follows it, with the names that its entries were given
as text, and no shorter piece of it is read; and whatever is read as a directory begins with that
directory's packed form. -/
theorem reading_undoes_packing (hasType : Bool) :
    (∀ dir : InlineDirectory, dir.Packable hasType →
      (∀ rest, ofBytes (dir.encode ++ rest) hasType = .ok dir) ∧
      (∀ entry ∈ dir.entries, ∀ text, entry.rawName = Utf8.encode text → entry.name = text) ∧
      ∀ cut, cut <+: dir.encode → cut ≠ dir.encode →
        ∃ needed, cut.length < needed ∧
          ofBytes cut hasType = .error (.truncated part needed cut.length)) ∧
    ∀ fork dir, ofBytes fork hasType = .ok dir →
      dir.encode <+: fork ∧ dir.entries.length = dir.count ∧ dir.Packable hasType := by
  constructor
  · intro dir hfits
    refine ⟨ofBytes_encode_append hfits, ?_, fun cut => ofBytes_of_prefix hfits⟩
    intro entry _ text hname
    rw [DirectoryEntry.name, hname, Utf8.decode_encode]
  · intro fork dir hread
    obtain ⟨hbegins, hfits⟩ := ofBytes_eq_ok_iff.1 hread
    exact ⟨hbegins, hfits.count_eq.symm, hfits⟩

/-- Two entries with wide inode numbers and file types, one of them with a name that is not ASCII. -/
def mountPoint : InlineDirectory :=
  { count := 2
    wideCount := 1
    parent := 0x10000000000
    entries :=
      [ { rawName := [0xC3, 0xA9], offset := 0x60, fileType := some 2, ino := 0x123456789ABCDEF },
        { rawName := [], offset := 0x70, fileType := some 1, ino := 99 } ] }

theorem mountPoint_packable : mountPoint.Packable true where
  count_eq := rfl
  count_lt := by decide
  wideCount_lt := by decide
  parent_lt := by decide
  entries :=
    List.forall_mem_cons.2 ⟨⟨by decide, by decide, show 2 < 256 by decide, by decide⟩,
      List.forall_mem_singleton.2 ⟨by decide, by decide, show 1 < 256 by decide, by decide⟩⟩

theorem mountPoint_read :
    mountPoint.Packable true ∧ ofBytes (mountPoint.encode ++ [0, 0]) true = .ok mountPoint ∧
      (mountPoint.entries.map DirectoryEntry.name).head? = some "é" ∧
      (∃ needed, (mountPoint.encode.take 30).length < needed ∧
        ofBytes (mountPoint.encode.take 30) true =
          .error (.truncated part needed (mountPoint.encode.take 30).length)) ∧
      mountPoint.encode <+: mountPoint.encode ++ [0, 0] := by
  obtain ⟨hread, hname, hcut⟩ := (reading_undoes_packing true).1 mountPoint mountPoint_packable
  refine ⟨mountPoint_packable, hread _, ?_, hcut _ (List.take_prefix _ _) (by decide),
    ((reading_undoes_packing true).2 _ _ (hread [0, 0])).1⟩
  have hfirst := hname _ List.mem_cons_self "é" (by rw [Utf8.encode_eq]; decide)
  exact congrArg some hfirst

end InlineDirectory

end DiskScope.Xfs
