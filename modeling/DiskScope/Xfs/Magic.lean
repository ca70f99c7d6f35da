/-
  DiskScope/Xfs/Magic.lean --- the numbers that XFS structures begin with.

  WHAT THIS FILE IS FOR.  Every XFS structure leads with a magic, most of them four
  letters read as a big-endian word.  Trees have one magic for plain blocks and
  one for blocks with checksums.
-/
set_option autoImplicit false

namespace DiskScope.Xfs.Magic

/-! ## Headers -/

/-- Spelled XFSB. -/
def superblock : Nat := 0x58465342
/-- Spelled XAGF. -/
def agf : Nat := 0x58414746
/-- Spelled XAGI. -/
def agi : Nat := 0x58414749
/-- Spelled XAFL. -/
def agfl : Nat := 0x5841464C
/-- The log has no letters. -/
def logRecord : Nat := 0xFEEDBABE

/-! ## Trees -/

/-- Spelled ABTB. -/
def freeByBlock : Nat := 0x41425442
/-- Spelled AB3B. -/
def freeByBlockCrc : Nat := 0x41423342
/-- Spelled ABTC. -/
def freeBySize : Nat := 0x41425443
/-- Spelled AB3C. -/
def freeBySizeCrc : Nat := 0x41423343
/-- Spelled IABT. -/
def inodeTree : Nat := 0x49414254
/-- Spelled IAB3. -/
def inodeTreeCrc : Nat := 0x49414233
/-- Spelled FIBT. -/
def freeInodeTree : Nat := 0x46494254
/-- Spelled FIB3. -/
def freeInodeTreeCrc : Nat := 0x46494233
/-- Spelled R3FC. -/
def refcountTree : Nat := 0x52334643
/-- Spelled RMB3. -/
def reverseMapTree : Nat := 0x524D4233
/-- Spelled BMAP. -/
def extentMapTree : Nat := 0x424D4150
/-- Spelled BMA3. -/
def extentMapTreeCrc : Nat := 0x424D4133

/-! ## Two-byte magics -/

/-- Spelled IN. -/
def inode : Nat := 0x494E
/-- Spelled DQ. -/
def quota : Nat := 0x4451

end DiskScope.Xfs.Magic
