/-
  DiskScope/Proofs/Xfs/InodeVerdict.lean --- what becomes of bytes that are read as an inode.

  WHAT THIS FILE IS FOR.  Any bytes can be handed to the decoder, and any number asked for.
  `Verdict` lists what can come of it, one constructor for each outcome, under conditions on
  the bytes alone: lengths, the letters in front, the version, the number on disk, and the
  format and the file type.  The conditions of a line exclude those of the lines before it,
  so the list is an order in which faults are found.

  THE DATA FORK has a list of its own, `ForkVerdict`, for the combinations of format and file
  type.  `forkBytes` are the bytes that it is about: they begin behind the core and end where
  the attribute fork begins or the buffer ends.

  MAIN STATEMENTS.

      forkVerdict_iff     decoding a fork follows the list
      verdict_ofBytes     and so does decoding an inode
      Verdict.map_fork    which the list decides
-/
import DiskScope.Proofs.Bytes.Holds
import DiskScope.Proofs.Xfs.InodeParts

set_option autoImplicit false

namespace DiskScope.Xfs.Inode

open Text Unix

/-! ## The data fork -/

/-- The file types for which the bytes of a data fork in this format mean something. -/
def meantTypes : ForkFormat → List FileType
  | .extents => [.regular, .directory, .symlink]
  | .tree => [.regular, .directory]
  | .inlined => [.directory, .symlink]
  | .device => [.charDevice, .blockDevice]
  | .uuid => []
  | .unknown _ => []

/-- What becomes of the bytes of a data fork. -/
inductive ForkVerdict (fork : Bytes) (fileType : FileType) (extentCount size : Nat)
    (hasType : Bool) : ForkFormat → Except Fault Fork → Prop where
  /-- No extent fits in. -/
  | extentsCut (hmeant : fileType ∈ meantTypes .extents) (hlen : fork.length < 16) :
    ForkVerdict fork fileType extentCount size hasType .extents
      (.error (.truncated "extent list" 16 fork.length))
  | extents (hmeant : fileType ∈ meantTypes .extents) (hlen : 16 ≤ fork.length) :
    ForkVerdict fork fileType extentCount size hasType .extents
      (.ok (.extents (Extent.listOf fork extentCount)))
  | treeCut (hmeant : fileType ∈ meantTypes .tree) (hlen : fork.length < 4) :
    ForkVerdict fork fileType extentCount size hasType .tree
      (.error (.truncated "bmbt root" 4 fork.length))
  | tree (hmeant : fileType ∈ meantTypes .tree) (hlen : 4 ≤ fork.length) :
    ForkVerdict fork fileType extentCount size hasType .tree
      (.ok (.treeRoot (fork.be16 0) (fork.be16 2) fork))
  | deviceCut (hmeant : fileType ∈ meantTypes .device) (hlen : fork.length < 4) :
    ForkVerdict fork fileType extentCount size hasType .device
      (.error (.truncated "device fork" 4 fork.length))
  | device (hmeant : fileType ∈ meantTypes .device) (hlen : 4 ≤ fork.length) :
    ForkVerdict fork fileType extentCount size hasType .device
      (.ok (.device (Device.ofNumber (fork.be32 0))))
  /-- The fault is that of the directory. -/
  | directoryCut {fault : Fault} (htype : fileType = .directory)
    (hdir : InlineDirectory.ofBytes fork hasType = .error fault) :
    ForkVerdict fork fileType extentCount size hasType .inlined (.error fault)
  | directory {dir : InlineDirectory} (htype : fileType = .directory)
    (hdir : InlineDirectory.ofBytes fork hasType = .ok dir) :
    ForkVerdict fork fileType extentCount size hasType .inlined (.ok (.directory dir))
  | symlink (htype : fileType = .symlink) :
    ForkVerdict fork fileType extentCount size hasType .inlined (.ok (.symlink (fork.take size)))
  /-- Every other combination keeps its bytes. -/
  | unhandled {format : ForkFormat} (hmeant : fileType ∉ meantTypes format) :
    ForkVerdict fork fileType extentCount size hasType format (.ok (.unhandled fork))

variable {fork : Bytes} {fileType : FileType} {extentCount size : Nat} {hasType : Bool}
  {format : ForkFormat}

theorem readFork_extents (h : fileType ∈ meantTypes .extents) :
    readFork fork .extents fileType extentCount size hasType = (do
      fork.require "extent list" Extent.size
      pure (.extents (Extent.listOf fork extentCount))) := by
  simp only [meantTypes, List.mem_cons, List.not_mem_nil, or_false] at h
  rcases h with rfl | rfl | rfl
  all_goals rfl

theorem readFork_tree (h : fileType ∈ meantTypes .tree) :
    readFork fork .tree fileType extentCount size hasType = (do
      fork.require "bmbt root" 4
      pure (.treeRoot (fork.be16 0) (fork.be16 2) fork)) := by
  simp only [meantTypes, List.mem_cons, List.not_mem_nil, or_false] at h
  rcases h with rfl | rfl
  all_goals rfl

theorem readFork_device (h : fileType ∈ meantTypes .device) :
    readFork fork .device fileType extentCount size hasType = (do
      fork.require "device fork" 4
      pure (.device (Device.ofNumber (fork.be32 0)))) := by
  simp only [meantTypes, List.mem_cons, List.not_mem_nil, or_false] at h
  rcases h with rfl | rfl
  all_goals rfl

theorem readFork_directory :
    readFork fork .inlined .directory extentCount size hasType =
      (InlineDirectory.ofBytes fork hasType >>= fun dir => pure (.directory dir)) := rfl

theorem readFork_unhandled (h : fileType ∉ meantTypes format) :
    readFork fork format fileType extentCount size hasType = .ok (.unhandled fork) := by
  unfold readFork
  split
  case h_10 => rfl
  all_goals exact absurd (by decide) h

/-- A part that is read if its least number of bytes is there. -/
theorem require_bind_of_lt {α : Type} {needed : Nat} (h : fork.length < needed) (part : String)
    (next : Except Fault α) :
    (fork.require part needed >>= fun _ => next) =
      .error (.truncated part needed fork.length) := by
  rw [Bytes.require_of_lt h]
  rfl

theorem require_bind_of_le {α : Type} {needed : Nat} (h : needed ≤ fork.length) (part : String)
    (next : Except Fault α) : (fork.require part needed >>= fun _ => next) = next := by
  rw [Bytes.require_eq_ok_iff.2 h]
  rfl

/-- The list leaves no choice. -/
theorem ForkVerdict.eq {outcome : Except Fault Fork}
    (h : ForkVerdict fork fileType extentCount size hasType format outcome) :
    readFork fork format fileType extentCount size hasType = outcome := by
  cases h with
  | extentsCut hmeant hlen => rw [readFork_extents hmeant]; exact require_bind_of_lt hlen _ _
  | extents hmeant hlen => rw [readFork_extents hmeant]; exact require_bind_of_le hlen _ _
  | treeCut hmeant hlen => rw [readFork_tree hmeant]; exact require_bind_of_lt hlen _ _
  | tree hmeant hlen => rw [readFork_tree hmeant]; exact require_bind_of_le hlen _ _
  | deviceCut hmeant hlen => rw [readFork_device hmeant]; exact require_bind_of_lt hlen _ _
  | device hmeant hlen => rw [readFork_device hmeant]; exact require_bind_of_le hlen _ _
  | directoryCut htype hdir => rw [htype, readFork_directory, hdir]; rfl
  | directory htype hdir => rw [htype, readFork_directory, hdir]; rfl
  | symlink htype => rw [htype]; rfl
  | unhandled hmeant => exact readFork_unhandled hmeant

/-- The list has a line for every fork. -/
theorem exists_forkVerdict (fork : Bytes) (format : ForkFormat) (fileType : FileType)
    (extentCount size : Nat) (hasType : Bool) :
    ∃ outcome, ForkVerdict fork fileType extentCount size hasType format outcome := by
  by_cases hmeant : fileType ∈ meantTypes format
  · cases format with
    | device =>
      rcases Nat.lt_or_ge fork.length 4 with hlen | hlen
      · exact ⟨_, .deviceCut hmeant hlen⟩
      · exact ⟨_, .device hmeant hlen⟩
    | inlined =>
      simp only [meantTypes, List.mem_cons, List.not_mem_nil, or_false] at hmeant
      rcases hmeant with htype | htype
      · cases hdir : InlineDirectory.ofBytes fork hasType with
        | error fault => exact ⟨_, .directoryCut htype hdir⟩
        | ok dir => exact ⟨_, .directory htype hdir⟩
      · exact ⟨_, .symlink htype⟩
    | extents =>
      rcases Nat.lt_or_ge fork.length 16 with hlen | hlen
      · exact ⟨_, .extentsCut hmeant hlen⟩
      · exact ⟨_, .extents hmeant hlen⟩
    | tree =>
      rcases Nat.lt_or_ge fork.length 4 with hlen | hlen
      · exact ⟨_, .treeCut hmeant hlen⟩
      · exact ⟨_, .tree hmeant hlen⟩
    | uuid => cases hmeant
    | unknown code => cases hmeant
  · exact ⟨_, .unhandled hmeant⟩

/-- Decoding a fork follows the list. -/
theorem forkVerdict_iff {outcome : Except Fault Fork} :
    ForkVerdict fork fileType extentCount size hasType format outcome ↔
      readFork fork format fileType extentCount size hasType = outcome := by
  constructor
  · exact ForkVerdict.eq
  · rintro rfl
    obtain ⟨outcome, hverdict⟩ :=
      exists_forkVerdict fork format fileType extentCount size hasType
    rwa [hverdict.eq]

/-! ## The inode -/

/-- The letters IN, with which an inode begins. -/
def letters : Bytes := [0x49, 0x4E]

/-- Where the core ends. -/
def coreEnd (data : Bytes) : Nat := if 3 ≤ data.byteAt 4 then 176 else 100

/-- Where the data fork ends: at the attribute fork, if there is one, or with the buffer. -/
def forkEnd (data : Bytes) : Nat :=
  if data.byteAt 0x52 = 0 then data.length
  else min data.length (coreEnd data + 8 * data.byteAt 0x52)

/-- The bytes of the data fork. -/
def forkBytes (data : Bytes) : Bytes :=
  data.slice (coreEnd data) (forkEnd data - coreEnd data)

/-- The bytes begin like an inode, hold its core whole, and are the inode that was asked for. -/
structure Admitted (data : Bytes) (ino : Nat) : Prop where
  letters_le : letters <+: data
  core_le : coreEnd data ≤ data.length
  ino_eq : 3 ≤ data.byteAt 4 → data.be64 0x98 = ino

/-- What becomes of bytes that are read as the inode `ino`. -/
inductive Verdict (data : Bytes) (ino : Nat) (hasType : Bool) : Except Fault Inode → Prop where
  | short (hlen : data.length < 100) :
    Verdict data ino hasType (.error (.truncated "inode" 100 data.length))
  | foreign (hlen : 100 ≤ data.length) (hletters : ¬ letters <+: data) :
    Verdict data ino hasType
      (.error (.badMagic "inode" ("inode " ++ decimal ino) 0x494E (data.be16 0)))
  /-- Only from version 3 on, since before it the core ends where the first check does. -/
  | cut (hlen : 100 ≤ data.length) (hletters : letters <+: data)
    (hcore : data.length < coreEnd data) :
    Verdict data ino hasType (.error (.truncated "inode" (coreEnd data) data.length))
  | stranger (hletters : letters <+: data) (hcore : coreEnd data ≤ data.length)
    (hversion : 3 ≤ data.byteAt 4) (hino : data.be64 0x98 ≠ ino) :
    Verdict data ino hasType (.error (.inoMismatch ino (data.be64 0x98)))
  | spoilt (h : Admitted data ino) {fault : Fault}
    (hfork : ForkVerdict (forkBytes data) (FileType.ofMode (data.be16 0x02)) (data.be32 0x4C)
      (data.be64 0x38) hasType (ForkFormat.ofCode (data.byteAt 0x05)) (.error fault)) :
    Verdict data ino hasType (.error fault)
  | decoded (h : Admitted data ino) {inode : Inode}
    (hfork : ForkVerdict (forkBytes data) (FileType.ofMode (data.be16 0x02)) (data.be32 0x4C)
      (data.be64 0x38) hasType (ForkFormat.ofCode (data.byteAt 0x05)) (.ok inode.fork))
    (hino : inode.ino = ino) (hversion : inode.version = data.byteAt 4)
    (htype : inode.fileType = FileType.ofMode (data.be16 0x02))
    (hformat : inode.format = ForkFormat.ofCode (data.byteAt 0x05))
    (hextension : inode.extension.isSome = decide (3 ≤ data.byteAt 4))
    (hown : ∀ added ∈ inode.extension, added.ino = ino) :
    Verdict data ino hasType (.ok inode)

variable {data : Bytes} {ino : Nat}

theorem coreSize_eq_coreEnd (data : Bytes) : coreSize (versionOf data) = coreEnd data := rfl

/-- The window of the decoder is the data fork. -/
theorem windowOf_eq (hcore : coreEnd data ≤ data.length) : windowOf data = forkBytes data := by
  rw [windowOf, forkWindow, coreSize_eq_coreEnd, forkBytes, forkEnd, Bytes.slice]
  split
  · rw [List.take_of_length_le (Nat.le_of_eq List.length_drop)]
  · refine List.take_eq_take_iff.2 ?_
    rw [List.length_drop]
    omega

theorem hundred_le_coreEnd (data : Bytes) : 100 ≤ coreEnd data := by
  unfold coreEnd
  split <;> omega

/-- The magic is the number that the letters make. -/
theorem magic_iff (hlen : 100 ≤ data.length) : data.be16 0 = Magic.inode ↔ letters <+: data := by
  have hdigits : Bytes.ofNatBE 2 Magic.inode = letters := by decide
  have hfits : Magic.inode < 1 <<< (8 * 2) := by decide
  have hnumber : data.Holds 0 (Bytes.ofNatBE 2 Magic.inode) ∧ Magic.inode < 1 <<< (8 * 2) ↔
      0 + 2 ≤ data.length ∧ data.be16 0 = Magic.inode := Bytes.holds_number
  rw [hdigits, and_iff_left hfits, Bytes.holds_zero_iff, and_iff_right (by omega)] at hnumber
  exact hnumber.symm

/-! ### The head -/

theorem readHead_short (hlen : data.length < 100) :
    readHead data ino = .error (.truncated "inode" 100 data.length) :=
  require_bind_of_lt hlen _ _

theorem readHead_foreign (hlen : 100 ≤ data.length) (hletters : ¬ letters <+: data) :
    readHead data ino =
      .error (.badMagic "inode" ("inode " ++ decimal ino) 0x494E (data.be16 0)) := by
  have hshort : shortCoreSize ≤ data.length := hlen
  rw [readHead, require_bind_of_le hshort, if_pos (mt (magic_iff hlen).1 hletters)]
  rfl

theorem readHead_cut (hlen : 100 ≤ data.length) (hletters : letters <+: data)
    (hcore : data.length < coreEnd data) :
    readHead data ino = .error (.truncated "inode" (coreEnd data) data.length) := by
  have hshort : shortCoreSize ≤ data.length := hlen
  rw [readHead, require_bind_of_le hshort, if_neg (not_not_intro ((magic_iff hlen).2 hletters))]
  exact require_bind_of_lt hcore _ _

/-- A whole core of the right kind leaves the number to be compared. -/
theorem readHead_whole (hletters : letters <+: data) (hcore : coreEnd data ≤ data.length) :
    readHead data ino = readAdded data ino :=
  readHead_of_whole
    ((magic_iff (Nat.le_trans (hundred_le_coreEnd data) hcore)).2 hletters) hcore

theorem readAdded_of_le (hversion : 3 ≤ data.byteAt 4) :
    readAdded data ino = some <$> readExtension data ino := if_pos hversion

theorem readHead_stranger (hletters : letters <+: data) (hcore : coreEnd data ≤ data.length)
    (hversion : 3 ≤ data.byteAt 4) (hino : data.be64 0x98 ≠ ino) :
    readHead data ino = .error (.inoMismatch ino (data.be64 0x98)) := by
  rw [readHead_whole hletters hcore, readAdded_of_le hversion, readExtension_of_ne hino]
  rfl

/-- An inode that is admitted has a head without fault. -/
theorem Admitted.exists_readHead (h : Admitted data ino) :
    ∃ extension, readHead data ino = .ok extension ∧
      extension.isSome = decide (3 ≤ data.byteAt 4) ∧ ∀ added ∈ extension, added.ino = ino := by
  rw [readHead_whole h.letters_le h.core_le]
  by_cases hversion : 3 ≤ data.byteAt 4
  · obtain ⟨added, hread, hown⟩ := readExtension_of_eq (h.ino_eq hversion)
    refine ⟨some added, ?_, (decide_eq_true hversion).symm, ?_⟩
    · rw [readAdded_of_le hversion, hread]
      rfl
    · rintro _ ⟨⟩
      exact hown
  · refine ⟨none, if_neg hversion, (decide_eq_false hversion).symm, ?_⟩
    rintro _ ⟨⟩

/-! ### The whole -/

theorem ofBytes_of_head_error {fault : Fault} (h : readHead data ino = .error fault) :
    ofBytes data ino hasType = .error fault := by
  rw [ofBytes_eq, h]
  rfl

/-- Behind a head without fault only the data fork can fail. -/
theorem ofBytes_of_head_ok {extension : Option CoreExtension}
    (h : readHead data ino = .ok extension) :
    ofBytes data ino hasType = (readWindow data hasType).map (assemble data ino extension) := by
  rw [ofBytes_eq, h]
  cases hfork : readWindow data hasType with
  | error fault => rfl
  | ok fork => rfl

/-- The data fork of an inode that is admitted. -/
theorem Admitted.readWindow_eq (h : Admitted data ino) (hasType : Bool) :
    readWindow data hasType = readFork (forkBytes data) (ForkFormat.ofCode (data.byteAt 0x05))
      (FileType.ofMode (data.be16 0x02)) (data.be32 0x4C) (data.be64 0x38) hasType := by
  rw [readWindow, windowOf_eq h.core_le]

/-- The list leaves no choice: a fault is the one that it names, and so is a data fork. -/
theorem Verdict.map_fork {outcome : Except Fault Inode} (h : Verdict data ino hasType outcome) :
    (ofBytes data ino hasType).map Inode.fork = outcome.map Inode.fork := by
  cases h with
  | short hlen => rw [ofBytes_of_head_error (readHead_short hlen)]
  | foreign hlen hletters => rw [ofBytes_of_head_error (readHead_foreign hlen hletters)]
  | cut hlen hletters hcore => rw [ofBytes_of_head_error (readHead_cut hlen hletters hcore)]
  | stranger hletters hcore hversion hino =>
    rw [ofBytes_of_head_error (readHead_stranger hletters hcore hversion hino)]
  | spoilt hadmitted hfork =>
    obtain ⟨extension, hhead, _⟩ := hadmitted.exists_readHead
    rw [ofBytes_of_head_ok hhead, hadmitted.readWindow_eq, hfork.eq]
    rfl
  | decoded hadmitted hfork =>
    obtain ⟨extension, hhead, _⟩ := hadmitted.exists_readHead
    rw [ofBytes_of_head_ok hhead, hadmitted.readWindow_eq, hfork.eq]
    rfl

/-- Decoding an inode that is admitted follows the list of its data fork. -/
theorem Admitted.verdict (h : Admitted data ino) (hasType : Bool) :
    Verdict data ino hasType (ofBytes data ino hasType) := by
  obtain ⟨extension, hhead, hsome, hown⟩ := h.exists_readHead
  rw [ofBytes_of_head_ok hhead]
  have hfork := forkVerdict_iff.2 (h.readWindow_eq hasType).symm
  cases hread : readWindow data hasType with
  | error fault =>
    rw [hread] at hfork
    exact .spoilt h hfork
  | ok fork =>
    rw [hread] at hfork
    exact .decoded h hfork rfl rfl rfl rfl hsome hown

/-- Decoding an inode follows the list. -/
theorem verdict_ofBytes (data : Bytes) (ino : Nat) (hasType : Bool) :
    Verdict data ino hasType (ofBytes data ino hasType) := by
  rcases Nat.lt_or_ge data.length 100 with hshort | hlen
  · rw [ofBytes_of_head_error (readHead_short hshort)]
    exact .short hshort
  by_cases hletters : letters <+: data
  · rcases Nat.lt_or_ge data.length (coreEnd data) with hcut | hcore
    · rw [ofBytes_of_head_error (readHead_cut hlen hletters hcut)]
      exact .cut hlen hletters hcut
    by_cases hown : 3 ≤ data.byteAt 4 → data.be64 0x98 = ino
    · exact Admitted.verdict ⟨hletters, hcore, hown⟩ hasType
    · obtain ⟨hversion, hino⟩ := Classical.not_imp.1 hown
      rw [ofBytes_of_head_error (readHead_stranger hletters hcore hversion hino)]
      exact .stranger hletters hcore hversion hino
  · rw [ofBytes_of_head_error (readHead_foreign hlen hletters)]
    exact .foreign hlen hletters

end DiskScope.Xfs.Inode
