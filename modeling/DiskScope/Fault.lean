/-
  DiskScope/Fault.lean --- why a disk structure could not be read or believed.

  WHAT THIS FILE IS FOR.  Every decoder is total: it answers with a value or with
  one of these faults.  A fault carries the numbers that were compared and the
  place they were found, so its wording is a function of the fault alone
  (`Fault.message`).

  A failed device access (`Fault.io`) is set apart from all others: it says that
  bytes are missing, not that the bytes are wrong, and no leniency covers it.
-/
import DiskScope.Bytes
import DiskScope.Text.Layout

set_option autoImplicit false

namespace DiskScope

open Text

/-- Why a structure was refused. -/
inductive Fault where
  /-- The device or a file failed, for the given reason. -/
  | io (reason : String)
  /-- The leading magic of `part` at `location` is wrong. -/
  | badMagic (part location : String) (expected actual : Nat)
  /-- A size is not the power of two that its logarithm names. -/
  | inconsistentGeometry (location field : String) (size log2 : Nat)
  /-- A geometry field lies outside its range. -/
  | geometryOutOfRange (location field : String) (value min max : Nat)
  /-- The inode at hand is another one than was asked for. -/
  | inoMismatch (expected actual : Nat)
  /-- No inode lies below the root directory's. -/
  | belowRootIno (ino root : Nat)
  /-- A free-space tree and its header disagree on the number of free blocks. -/
  | freeCountMismatch (ag expected actual : Nat)
  /-- A group has no usable free-space tree. -/
  | missingFreeTree (ag : Nat)
  /-- A boot sector does not end in the boot signature. -/
  | badSignature (sector actual : Nat)
  /-- A chain of extended boot records does not end in time. -/
  | chainTooLong (limit : Nat)
  /-- `part` needs more bytes than there are. -/
  | truncated (part : String) (needed actual : Nat)
  /-- No structure has this name. -/
  | unknownStructure (name : String)
  deriving DecidableEq, Repr, Inhabited

namespace Fault

/-- A read that runs past the end of its source. -/
def shortRead : Fault := .io "failed to fill whole buffer"

/-- A read that cannot be positioned where it is to start. -/
def outOfReach : Fault := .io "Invalid argument (os error 22)"

/-- Whether the fault is a failed access, which no leniency covers. -/
def isIo : Fault → Bool
  | io _ => true
  | _ => false

/-- The wording of a fault. -/
def message : Fault → String
  | io reason => "I/O error: " ++ reason
  | badMagic part location expected actual =>
    "bad magic in " ++ part ++ " at " ++ location ++ ": expected " ++ hex expected
      ++ ", got " ++ hex actual
  | inconsistentGeometry location field size log2 =>
    "inconsistent geometry in " ++ location ++ ": " ++ field ++ " is " ++ decimal size
      ++ ", but its log2 field is " ++ decimal log2
  | geometryOutOfRange location field value min max =>
    location ++ ": " ++ field ++ " is " ++ decimal value ++ ", valid range is " ++ decimal min
      ++ "..=" ++ decimal max
  | inoMismatch expected actual =>
    "inode " ++ decimal expected ++ ": on-disk inode number is " ++ decimal actual
  | belowRootIno ino root =>
    "inode " ++ decimal ino ++ " is below the root inode " ++ decimal root
  | freeCountMismatch ag expected actual =>
    "AG " ++ decimal ag ++ ": free-space tree accounts " ++ decimal actual
      ++ " free blocks, AGF records " ++ decimal expected
  | missingFreeTree ag => "AG " ++ decimal ag ++ ": no free-space-by-block tree loaded"
  | badSignature sector actual =>
    "invalid boot signature at sector " ++ decimal sector ++ ": expected 0xAA55, got "
      ++ hexWideUpper 4 actual
  | chainTooLong limit =>
    "extended partition chain exceeds " ++ decimal limit ++ " logical partitions"
  | truncated part needed actual =>
    part ++ " truncated: need " ++ decimal needed ++ " bytes, have " ++ decimal actual
  | unknownStructure name => "unknown structure type: " ++ name

end Fault

/-- Refuses a buffer of fewer than `needed` bytes as a cut-off `part`. -/
def Bytes.require (data : Bytes) (part : String) (needed : Nat) : Except Fault Unit :=
  if data.length < needed then .error (.truncated part needed data.length) else .ok ()

theorem Bytes.require_eq_ok_iff {data : Bytes} {part : String} {needed : Nat} :
    data.require part needed = .ok () ↔ needed ≤ data.length := by
  unfold Bytes.require
  split <;> simp <;> omega

theorem Bytes.require_of_lt {data : Bytes} {needed : Nat} (h : data.length < needed)
    (part : String) : data.require part needed = .error (.truncated part needed data.length) :=
  if_pos h

end DiskScope
