/-
  DiskScope/Proofs/Xfs/InodeParts.lean --- decoding an inode, in three steps.

  WHAT THIS FILE IS FOR.  Decoding an inode first looks at its head: whether it is long
  enough, is an inode, and is the one that was asked for.  Then it decodes the data fork, and
  then it puts the record together from numbers at fixed offsets.  Here the three steps
  are named, so that what is said of one of them needs no other.

  MAIN STATEMENTS.

      ofBytes_eq            decoding is these three steps
      readHead_eq_ok_iff    what a head has to be like
-/
import DiskScope.Proofs.Traced.Outcome
import DiskScope.Xfs.Inode

set_option autoImplicit false

namespace DiskScope.Xfs.Inode

open Text Unix

/-! ## The steps -/

/-- The version that the bytes give. -/
def versionOf (data : Bytes) : Nat := data.byteAt versionOffset

/-- What version 3 adds to the core, if it is there. -/
def readAdded (data : Bytes) (ino : Nat) : Except Fault (Option CoreExtension) :=
  if 3 ≤ versionOf data then some <$> readExtension data ino else .ok none

/-- The checks that an inode has to pass, and what version 3 adds to its core. -/
def readHead (data : Bytes) (ino : Nat) : Except Fault (Option CoreExtension) := do
  data.require "inode" shortCoreSize
  if data.be16 0 ≠ Magic.inode then
    .error (.badMagic "inode" ("inode " ++ decimal ino) Magic.inode (data.be16 0))
  else do
    data.require "inode" (coreSize (versionOf data))
    readAdded data ino

/-- The bytes of the data fork. -/
def windowOf (data : Bytes) : Bytes :=
  forkWindow data (coreSize (versionOf data)) (data.byteAt 0x52)

/-- The data fork, which the core says how to read. -/
def readWindow (data : Bytes) (hasType : Bool) : Except Fault Fork :=
  readFork (windowOf data) (ForkFormat.ofCode (data.byteAt 0x05)) (FileType.ofMode (data.be16 0x02))
    (data.be32 0x4C) (data.be64 0x38) hasType

/-- The record of the inode `ino` with this extension and this data fork. -/
def assemble (data : Bytes) (ino : Nat) (extension : Option CoreExtension) (fork : Fork) : Inode :=
  let isLong := extension.any fun added => asksLongTimes added.flags2
  { ino := ino
    version := versionOf data
    mode := data.be16 0x02
    fileType := FileType.ofMode (data.be16 0x02)
    format := ForkFormat.ofCode (data.byteAt 0x05)
    uid := data.be32 0x08
    gid := data.be32 0x0C
    linkCount := if versionOf data = 1 then data.be16 0x06 else data.be32 0x10
    size := data.be64 0x38
    blockCount := data.be64 0x40
    extentSize := data.be32 0x48
    extentCount := data.be32 0x4C
    attrExtentCount := data.be16 0x50
    forkOffset := data.byteAt 0x52
    attrFormat := data.byteAt 0x53
    flags := data.be16 0x5A
    generation := data.be32 0x5C
    accessed := Timestamp.ofBytes data 0x20 isLong
    modified := Timestamp.ofBytes data 0x28 isLong
    changed := Timestamp.ofBytes data 0x30 isLong
    extension := extension
    fork := fork }

variable {data : Bytes} {ino : Nat}

/-- Decoding looks at the head, decodes the fork, and puts the record together. -/
theorem ofBytes_eq (data : Bytes) (ino : Nat) (hasType : Bool) :
    ofBytes data ino hasType = (do
      let extension ← readHead data ino
      let fork ← readWindow data hasType
      pure (assemble data ino extension fork)) := by
  unfold ofBytes readHead readAdded versionOf
  cases data.require "inode" shortCoreSize with
  | error fault => rfl
  | ok _ =>
    by_cases hmagic : data.be16 0 ≠ Magic.inode
    · simp only [if_pos hmagic]
      rfl
    simp only [if_neg hmagic]
    cases data.require "inode" (coreSize (data.byteAt versionOffset)) with
    | error fault => rfl
    | ok _ =>
      by_cases hlong : 3 ≤ data.byteAt versionOffset
      · simp only [if_pos hlong]
        cases readExtension data ino with
        | error fault => rfl
        | ok added => rfl
      · simp only [if_neg hlong]
        rfl

/-! ## The head -/

theorem shortCoreSize_le (version : Nat) : shortCoreSize ≤ coreSize version := by
  unfold coreSize
  split <;> decide

/-- What version 3 adds carries the number of the inode, which is the one that was asked for. -/
theorem readExtension_of_eq (h : data.be64 inoOffset = ino) :
    ∃ added, readExtension data ino = .ok added ∧ added.ino = ino :=
  ⟨_, if_pos h, h⟩

theorem readExtension_of_ne (h : data.be64 inoOffset ≠ ino) :
    readExtension data ino = .error (.inoMismatch ino (data.be64 inoOffset)) :=
  if_neg h

theorem readHead_of_whole (hmagic : data.be16 0 = Magic.inode)
    (hcore : coreSize (versionOf data) ≤ data.length) : readHead data ino = readAdded data ino := by
  have hshort := Nat.le_trans (shortCoreSize_le (versionOf data)) hcore
  rw [readHead, Bytes.require_eq_ok_iff.2 hshort, Bytes.require_eq_ok_iff.2 hcore]
  exact if_neg (not_not_intro hmagic)

theorem readHead_eq_ok_iff {extension : Option CoreExtension} :
    readHead data ino = .ok extension ↔
      data.be16 0 = Magic.inode ∧ coreSize (versionOf data) ≤ data.length ∧
        readAdded data ino = .ok extension := by
  constructor
  · intro h
    obtain ⟨_, _, hchecked⟩ := Except.bind_eq_ok.1 h
    split at hchecked
    · cases hchecked
    · rename_i hmagic
      obtain ⟨_, hcore, hadded⟩ := Except.bind_eq_ok.1 hchecked
      exact ⟨Classical.not_not.1 hmagic, Bytes.require_eq_ok_iff.1 hcore, hadded⟩
  · rintro ⟨hmagic, hcore, hadded⟩
    rw [readHead_of_whole hmagic hcore, hadded]

end DiskScope.Xfs.Inode
