/-
  DiskScope/Proofs/Xfs/InodeInside.lean --- decoding an inode never reads outside its bytes.

  WHAT THIS FILE IS FOR.  Every length in an inode comes from the disk: the version says how long
  the core is, the core where the data fork ends, the fork how many extents and names there
  are.  Here the decoder is written once more with guarded reads, in the same order and
  behind the same checks, and shown to be the same function.  A check that were missing or
  stood too late would leave a read without a proof that it lies inside.

  MAIN STATEMENTS.

      directory_eq       inline directories
      dataFork_eq        data forks
      inode_eq           inodes
      ofBytes_decided    what becomes of any buffer, with no read outside it
-/
import DiskScope.Proofs.Guarded
import DiskScope.Proofs.Xfs.InodeVerdict

set_option autoImplicit false

namespace DiskScope.Xfs.Guarded

open Text Unix DiskScope.Guarded
open Inode (coreSize shortCoreSize asksLongTimes readFork versionOf)

variable {hasType : Bool}

/-! ## Inline directories -/

section directory

variable {fork : Bytes} {inoSize pos : Nat}

/-- An inode number. -/
def ino (fork : Bytes) (pos size : Nat) : Guarded Nat := do
  plain (fork.require InlineDirectory.part (pos + size))
  number fork pos size

/-- A file type, where one is stored. -/
def fileType (fork : Bytes) (hasType : Bool) (pos : Nat) : Guarded (Option Nat × Nat) := do
  if hasType then
    plain (fork.require InlineDirectory.part (pos + 1))
    let code ← number fork pos 1
    pure (some code, pos + 1)
  else pure (none, pos)

/-- An entry. -/
def entry (fork : Bytes) (hasType : Bool) (inoSize pos : Nat) :
    Guarded (DirectoryEntry × Nat) := do
  plain (fork.require InlineDirectory.part (pos + 3))
  let nameSize ← number fork pos 1
  let offset ← number fork (pos + 1) 2
  plain (fork.require InlineDirectory.part (pos + 3 + nameSize))
  let rawName ← bytes fork (pos + 3) nameSize
  let (fileType, next) ← fileType fork hasType (pos + 3 + nameSize)
  let ino ← ino fork next inoSize
  pure ({ rawName, offset, fileType, ino }, next + inoSize)

/-- Entries in a row. -/
def entries (fork : Bytes) (hasType : Bool) (inoSize : Nat) :
    (count pos : Nat) → Guarded (List DirectoryEntry)
  | 0, _ => pure []
  | count + 1, pos => do
    let (entry, next) ← entry fork hasType inoSize pos
    let rest ← entries fork hasType inoSize count next
    pure (entry :: rest)

/-- An inline directory. -/
def directory (fork : Bytes) (hasType : Bool) : Guarded InlineDirectory := do
  plain (fork.require InlineDirectory.part 2)
  let count ← number fork 0 1
  let wideCount ← number fork 1 1
  let parent ← ino fork 2 (InlineDirectory.inoSize wideCount)
  let entries ← entries fork hasType (InlineDirectory.inoSize wideCount) count
    (2 + InlineDirectory.inoSize wideCount)
  pure { count, wideCount, parent, entries }

theorem ino_eq : ino fork pos inoSize = plain (InlineDirectory.readIno fork pos inoSize) :=
  plain_bind_congr fun _ hlen => number_of_le (Bytes.require_eq_ok_iff.1 hlen)

theorem fileType_eq :
    fileType fork hasType pos = plain (InlineDirectory.readFileType fork hasType pos) := by
  unfold fileType InlineDirectory.readFileType
  split
  · refine plain_bind_congr fun _ hlen => ?_
    rw [number_of_le (Bytes.require_eq_ok_iff.1 hlen), ← Bytes.byteAt_eq_beAt]
    rfl
  · rfl

theorem entry_eq :
    entry fork hasType inoSize pos = plain (InlineDirectory.readEntry fork hasType inoSize pos) := by
  refine plain_bind_congr fun _ hhead => ?_
  have hhead := Bytes.require_eq_ok_iff.1 hhead
  rw [number_of_le (by omega), number_of_le (by omega), pure_bind, pure_bind,
    ← Bytes.byteAt_eq_beAt]
  refine plain_bind_congr fun _ hname => ?_
  rw [bytes_of_le (Bytes.require_eq_ok_iff.1 hname), pure_bind, fileType_eq]
  refine plain_bind_congr fun ⟨fileType, next⟩ _ => ?_
  show ino fork next inoSize >>= _ = _
  rw [ino_eq]
  exact plain_bind_congr fun _ _ => rfl

theorem entries_eq (count : Nat) :
    entries fork hasType inoSize count pos =
      plain (InlineDirectory.readEntries fork hasType inoSize count pos) := by
  induction count generalizing pos with
  | zero => rfl
  | succ count ih =>
    rw [entries, entry_eq]
    refine plain_bind_congr fun ⟨entry, next⟩ _ => ?_
    show entries fork hasType inoSize count next >>= _ = _
    rw [ih]
    exact plain_bind_congr fun _ _ => rfl

/-- Decoding an inline directory stays inside. -/
theorem directory_eq : directory fork hasType = plain (InlineDirectory.ofBytes fork hasType) := by
  refine plain_bind_congr fun _ hhead => ?_
  have hhead := Bytes.require_eq_ok_iff.1 hhead
  rw [number_of_le (by omega), number_of_le (by omega), pure_bind, pure_bind,
    ← Bytes.byteAt_eq_beAt, ← Bytes.byteAt_eq_beAt, ino_eq]
  refine plain_bind_congr fun _ _ => ?_
  rw [entries_eq]
  exact plain_bind_congr fun _ _ => rfl

end directory

/-! ## Data forks -/

section dataFork

variable {window : Bytes} {format : ForkFormat} {fileType : FileType} {extentCount size : Nat}

/-- An extent. -/
def extent (piece : Bytes) : Guarded Extent := do
  let first ← number piece 0 8
  let second ← number piece 8 8
  pure (.unpack first second)

/-- A data fork. -/
def dataFork (window : Bytes) (format : ForkFormat) (fileType : FileType) (extentCount size : Nat)
    (hasType : Bool) : Guarded Fork :=
  match format, fileType with
  | .extents, .regular | .extents, .directory | .extents, .symlink => do
    plain (window.require "extent list" Extent.size)
    let list ← (Bytes.cut Extent.size (min extentCount (window.length / Extent.size)) window).mapM extent
    pure (.extents list)
  | .tree, .regular | .tree, .directory => do
    plain (window.require "bmbt root" 4)
    let level ← number window 0 2
    let recordCount ← number window 2 2
    pure (.treeRoot level recordCount window)
  | .inlined, .directory => do
    let dir ← directory window hasType
    pure (.directory dir)
  | .inlined, .symlink => do
    let target ← bytes window 0 (min size window.length)
    pure (.symlink target)
  | .device, .charDevice | .device, .blockDevice => do
    plain (window.require "device fork" 4)
    let number ← number window 0 4
    pure (.device (Device.ofNumber number))
  | _, _ => pure (.unhandled window)

theorem extents_eq (count : Nat) :
    (Bytes.cut Extent.size (min count (window.length / Extent.size)) window).mapM extent =
      pure (Extent.listOf window count) := by
  refine mapM_eq_plain fun piece hpiece => ?_
  have hfits : min count (window.length / Extent.size) * Extent.size ≤ window.length :=
    Nat.le_trans (Nat.mul_le_mul_right _ (Nat.min_le_right _ _)) (Nat.div_mul_le_self _ _)
  have hlen : piece.length = 16 := Bytes.length_of_mem_cut hfits hpiece
  rw [extent, number_of_le (by omega), number_of_le (by omega)]
  rfl

/-- Decoding a data fork stays inside. -/
theorem dataFork_eq : dataFork window format fileType extentCount size hasType =
    plain (readFork window format fileType extentCount size hasType) := by
  unfold dataFork
  split
  case h_1 | h_2 | h_3 =>
    refine plain_bind_congr fun _ _ => ?_
    rw [extents_eq]
    rfl
  case h_4 | h_5 =>
    refine plain_bind_congr fun _ hlen => ?_
    have hlen := Bytes.require_eq_ok_iff.1 hlen
    rw [number_of_le (by omega), number_of_le (by omega)]
    rfl
  case h_6 =>
    rw [directory_eq]
    exact plain_bind_congr fun _ _ => rfl
  case h_7 =>
    rw [bytes_of_le (by omega), Bytes.slice, List.drop_zero, ← List.take_eq_take_min]
    rfl
  case h_8 | h_9 =>
    refine plain_bind_congr fun _ hlen => ?_
    rw [number_of_le (Bytes.require_eq_ok_iff.1 hlen)]
    rfl
  case h_10 =>
    have hmeant : fileType ∉ Inode.meantTypes format := by
      cases format <;> simp_all [Inode.meantTypes]
    exact congrArg plain (Inode.readFork_unhandled hmeant).symm

end dataFork

/-! ## Inodes -/

variable {data : Bytes} {requested off : Nat} {isLong : Bool}

/-- A timestamp. -/
def timestamp (data : Bytes) (off : Nat) (isLong : Bool) : Guarded Timestamp :=
  if isLong then do
    let count ← number data off 8
    pure
      { seconds := (count / Timestamp.perSecond : Nat) - (Timestamp.longEpoch : Int)
        nanoseconds := count % Timestamp.perSecond }
  else do
    let seconds ← number data off 4
    let nanoseconds ← number data (off + 4) 4
    pure { seconds := Timestamp.signedWord seconds, nanoseconds }

/-- What version 3 adds to the core. -/
def extension (data : Bytes) (ino : Nat) : Guarded CoreExtension := do
  let onDisk ← number data 0x98 8
  if onDisk = ino then do
    let flags2 ← number data 0x78 8
    let crc ← number data 0x64 4
    let changeCount ← number data 0x68 8
    let lsn ← number data 0x70 8
    let cowExtentSize ← number data 0x80 4
    let created ← timestamp data 0x90 (asksLongTimes flags2)
    let uuid ← bytes data 0xA0 16
    pure { crc, changeCount, lsn, flags2, cowExtentSize, created, ino := onDisk, uuid }
  else plain (.error (.inoMismatch ino onDisk))

/-- The head of an inode. -/
def head (data : Bytes) (ino : Nat) : Guarded (Option CoreExtension) := do
  plain (data.require "inode" shortCoreSize)
  let magic ← number data 0 2
  if magic ≠ Magic.inode then
    plain (.error (.badMagic "inode" ("inode " ++ decimal ino) Magic.inode magic))
  else do
    let version ← number data 4 1
    plain (data.require "inode" (coreSize version))
    if 3 ≤ version then do
      let added ← extension data ino
      pure (some added)
    else pure none

/-- The bytes of the data fork behind a core of `core` bytes. -/
def window (data : Bytes) (core forkOffset : Nat) : Guarded Bytes :=
  if forkOffset = 0 then bytes data core (data.length - core)
  else bytes data core (min data.length (core + 8 * forkOffset) - core)

/-- The link count, which the first version keeps elsewhere. -/
def linkCount (data : Bytes) (version : Nat) : Guarded Nat :=
  if version = 1 then number data 0x06 2 else number data 0x10 4

/-- An inode. -/
def inode (data : Bytes) (ino : Nat) (hasType : Bool) : Guarded Inode := do
  let extension ← head data ino
  let version ← number data 0x04 1
  let isLong := extension.any fun added => asksLongTimes added.flags2
  let mode ← number data 0x02 2
  let format ← number data 0x05 1
  let forkOffset ← number data 0x52 1
  let extentCount ← number data 0x4C 4
  let size ← number data 0x38 8
  let window ← window data (coreSize version) forkOffset
  let fork ← dataFork window (.ofCode format) (.ofMode mode) extentCount size hasType
  let uid ← number data 0x08 4
  let gid ← number data 0x0C 4
  let linkCount ← linkCount data version
  let blockCount ← number data 0x40 8
  let extentSize ← number data 0x48 4
  let attrExtentCount ← number data 0x50 2
  let attrFormat ← number data 0x53 1
  let flags ← number data 0x5A 2
  let generation ← number data 0x5C 4
  let accessed ← timestamp data 0x20 isLong
  let modified ← timestamp data 0x28 isLong
  let changed ← timestamp data 0x30 isLong
  pure
    { ino, version, mode, fileType := .ofMode mode, format := .ofCode format, uid, gid, linkCount,
      size, blockCount, extentSize, extentCount, attrExtentCount, forkOffset, attrFormat, flags,
      generation, accessed, modified, changed, extension, fork }

theorem timestamp_of_le (h : off + 8 ≤ data.length) :
    timestamp data off isLong = pure (Timestamp.ofBytes data off isLong) := by
  cases isLong with
  | true =>
    simp only [timestamp, number_of_le h, pure_bind]
    rfl
  | false =>
    have hseconds : off + 4 ≤ data.length := by omega
    have hnanoseconds : off + 4 + 4 ≤ data.length := h
    simp only [timestamp, number_of_le hseconds, number_of_le hnanoseconds, pure_bind]
    rfl

/-- What version 3 adds lies inside a long core. -/
theorem extension_eq (hcore : Inode.longCoreSize ≤ data.length) :
    extension data requested = plain (Inode.readExtension data requested) := by
  have hlen : 0xB0 ≤ data.length := hcore
  rw [extension, number_of_le (by omega), pure_bind]
  by_cases hino : data.be64 0x98 = requested
  · rw [if_pos hino]
    simp (disch := omega) only [number_of_le, bytes_of_le, timestamp_of_le, pure_bind]
    exact congrArg plain (if_pos hino).symm
  · rw [if_neg hino]
    exact congrArg plain (if_neg hino).symm

theorem head_eq : head data requested = plain (Inode.readHead data requested) := by
  refine plain_bind_congr fun _ hshort => ?_
  have hlen : 0x64 ≤ data.length := Bytes.require_eq_ok_iff.1 hshort
  rw [number_of_le (by omega), pure_bind]
  split
  · rfl
  rw [number_of_le (by omega), pure_bind, ← Bytes.byteAt_eq_beAt]
  refine plain_bind_congr fun _ hcore => ?_
  by_cases hversion : 3 ≤ data.byteAt 4
  · have hlong : coreSize (versionOf data) = Inode.longCoreSize := if_pos hversion
    have hcore := Bytes.require_eq_ok_iff.1 hcore
    rw [if_pos hversion, Inode.readAdded_of_le hversion, extension_eq (hlong ▸ hcore)]
    exact plain_bind_congr fun _ _ => rfl
  · rw [if_neg hversion]
    exact congrArg plain (if_neg hversion).symm

/-- The data fork begins inside and is cut off at the end. -/
theorem window_eq (hcore : coreSize (versionOf data) ≤ data.length) :
    window data (coreSize (versionOf data)) (data.byteAt 0x52) = pure (Inode.windowOf data) := by
  rw [Inode.windowOf_eq hcore, Inode.forkBytes, Inode.forkEnd, Inode.coreSize_eq_coreEnd] at *
  unfold window
  split
  · exact bytes_of_le (by omega)
  · exact bytes_of_le (by omega)

theorem linkCount_eq (hlen : 100 ≤ data.length) (version : Nat) : linkCount data version =
    pure (if version = 1 then data.be16 0x06 else data.be32 0x10) := by
  rw [linkCount, number_of_le (by omega), number_of_le (by omega)]
  exact (apply_ite pure _ _ _).symm

/-- Decoding an inode stays inside. -/
theorem inode_eq : inode data requested hasType = plain (Inode.ofBytes data requested hasType) := by
  rw [Inode.ofBytes_eq, inode, head_eq]
  refine plain_bind_congr fun added hhead => ?_
  -- Behind the head the core is whole, and every field lies in it.
  obtain ⟨_, hcore, _⟩ := Inode.readHead_eq_ok_iff.1 hhead
  have hlen : 100 ≤ data.length := Nat.le_trans (Inode.shortCoreSize_le _) hcore
  have hversion : number data 0x04 1 = pure (versionOf data) := by
    rw [number_of_le (by omega), ← Bytes.byteAt_eq_beAt]
    rfl
  have hwindow := window_eq hcore
  rw [Bytes.byteAt_eq_beAt] at hwindow
  simp (disch := omega) only [hversion, number_of_le, timestamp_of_le, linkCount_eq, hwindow,
    dataFork_eq, Inode.readWindow, Inode.assemble, Bytes.byteAt_eq_beAt, pure_bind]
  exact plain_bind_congr fun _ _ => rfl

end DiskScope.Xfs.Guarded

namespace DiskScope.Xfs.Inode

/-! ## Every buffer -/

/-- Whatever the bytes, decoding reads none but those, its outcome is on the list, and the list
leaves no choice between two faults, between a fault and an inode, or between two data forks. -/
theorem ofBytes_decided (data : Bytes) (ino : Nat) (hasType : Bool) :
    Guarded.inode data ino hasType = Guarded.plain (ofBytes data ino hasType) ∧
      Verdict data ino hasType (ofBytes data ino hasType) ∧
      ∀ outcome, Verdict data ino hasType outcome →
        (ofBytes data ino hasType).map Inode.fork = outcome.map Inode.fork :=
  ⟨Guarded.inode_eq, verdict_ofBytes data ino hasType, fun _ => Verdict.map_fork⟩

/-- A character device with the number 1:3, in an inode of version 2. -/
def nullDevice : Bytes := letters ++ [0x21, 0x80, 2, 0] ++ List.replicate 94 0 ++ [0, 0, 1, 3]

theorem nullDevice_admitted : Admitted nullDevice 5 where
  letters_le := by decide
  core_le := by decide
  ino_eq := by decide

theorem nullDevice_verdict :
    Verdict nullDevice 5 true (.ok (assemble nullDevice 5 none (.device ⟨1, 3⟩))) :=
  .decoded nullDevice_admitted (.device (by decide) (by decide)) rfl rfl rfl rfl rfl (by rintro _ ⟨⟩)

theorem nullDevice_decided :
    Verdict nullDevice 5 true (.ok (assemble nullDevice 5 none (.device ⟨1, 3⟩))) ∧
      (ofBytes nullDevice 5 true).map Inode.fork = .ok (.device ⟨1, 3⟩) :=
  ⟨nullDevice_verdict, (ofBytes_decided nullDevice 5 true).2.2 _ nullDevice_verdict⟩

end DiskScope.Xfs.Inode
