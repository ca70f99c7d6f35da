/-
  DiskScope/Xfs/Feature.lean --- the names of feature bits.

  WHAT THIS FILE IS FOR.  A filesystem says in five words which features it uses.
  Each word has a table of named bits.  A word is shown as the names of its bits
  in table order, followed by one hexadecimal number for the bits without a name,
  so that no bit goes unseen.
-/
import DiskScope.Text.Layout

set_option autoImplicit false

namespace DiskScope.Xfs

open Text

/-- A bit of a feature word and its name. -/
structure Flag where
  bit : Nat
  name : String
  deriving DecidableEq, Repr, Inhabited

namespace Flag

/-- Whether the flag is set in `value`. -/
def isSet (flag : Flag) (value : Nat) : Bool := value &&& flag.bit != 0

/-- The bits of `value` that no flag of the table names. -/
def unnamed (value : Nat) (table : List Flag) : Nat :=
  value ^^^ (value &&& table.foldl (fun known flag => known ||| flag.bit) 0)

/-- The items that a word is shown as. -/
def items (value : Nat) (table : List Flag) : List String :=
  (table.filter (·.isSet value)).map (·.name)
    ++ (if unnamed value table = 0 then [] else [hex (unnamed value table)])

/-- A word as the names of its bits, or `none`. -/
def names (value : Nat) (table : List Flag) : String :=
  match items value table with
  | [] => "none"
  | shown => joinWith "|" shown

end Flag

/-! ## The tables -/

/-- The bits of the version word beside the version number. -/
def versionFlags : List Flag :=
  [ ⟨0x0010, "ATTR"⟩, ⟨0x0020, "NLINK"⟩, ⟨0x0040, "QUOTA"⟩, ⟨0x0080, "ALIGN"⟩,
    ⟨0x0100, "DALIGN"⟩, ⟨0x0200, "SHARED"⟩, ⟨0x0400, "LOGV2"⟩, ⟨0x0800, "SECTOR"⟩,
    ⟨0x1000, "EXTFLG"⟩, ⟨0x2000, "DIRV2"⟩, ⟨0x4000, "BORG"⟩, ⟨0x8000, "MOREBITS"⟩ ]

/-- The bits of the second feature word. -/
def features2Flags : List Flag :=
  [ ⟨0x002, "LAZYSBCOUNT"⟩, ⟨0x008, "ATTR2"⟩, ⟨0x010, "PARENT"⟩, ⟨0x080, "PROJID32"⟩,
    ⟨0x100, "CRC"⟩, ⟨0x200, "FTYPE"⟩ ]

/-- The features that a reader may ignore but a writer may not. -/
def roCompatFlags : List Flag :=
  [⟨0x1, "FINOBT"⟩, ⟨0x2, "RMAPBT"⟩, ⟨0x4, "REFLINK"⟩, ⟨0x8, "INOBTCNT"⟩]

/-- The features that nobody may ignore. -/
def incompatFlags : List Flag :=
  [ ⟨0x01, "FTYPE"⟩, ⟨0x02, "SPINODES"⟩, ⟨0x04, "META_UUID"⟩, ⟨0x08, "BIGTIME"⟩,
    ⟨0x10, "NEEDSREPAIR"⟩, ⟨0x20, "NREXT64"⟩ ]

/-- The features of the log that nobody may ignore. -/
def logIncompatFlags : List Flag := [⟨0x1, "XATTRS"⟩]

end DiskScope.Xfs
