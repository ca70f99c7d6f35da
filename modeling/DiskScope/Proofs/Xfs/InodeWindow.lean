/-
  DiskScope/Proofs/Xfs/InodeWindow.lean --- the attribute fork never shows in a decoded inode.

  WHAT THIS FILE IS FOR.  Behind the data fork an inode may have an attribute fork, with names
  and values that belong to others.  Extents are counted by the core, a symbolic link is as
  long as the core says, and a directory as long as its entries say; each of these lengths
  could reach over the end of the data fork.  Here it is shown that none does: two buffers
  that are the same up to the attribute fork decode alike, whatever follows.

  HOW.  Each step of decoding has a lemma that says how far it looks: the head and the fields
  not behind the core, the data fork not behind `attributeStart`.

  MAIN STATEMENTS.

      readHead_eq_of_agree, forkBytes_eq_of_agree, assemble_eq_of_agree    the steps
      ofBytes_hides_attributes                                             the whole
-/
import DiskScope.Proofs.Bytes.Agreement
import DiskScope.Proofs.Xfs.InodeVerdict

set_option autoImplicit false

namespace DiskScope.Xfs

open Bytes Unix

variable {limit : Nat} {data other : Bytes}

theorem Timestamp.ofBytes_eq_of_agree (h : AgreeTo limit data other) {off : Nat}
    (hend : off + 8 ≤ limit) (isLong : Bool) :
    ofBytes data off isLong = ofBytes other off isLong := by
  have hcount : data.be64 off = other.be64 off := h.beAt_eq hend
  have hseconds : data.be32 off = other.be32 off := h.beAt_eq (by omega)
  have hnanoseconds : data.be32 (off + 4) = other.be32 (off + 4) := h.beAt_eq (by omega)
  simp only [ofBytes, hcount, hseconds, hnanoseconds]

namespace Inode

/-- Where the attribute fork begins, in a buffer that has one. -/
def attributeStart (data : Bytes) : Nat := coreEnd data + 8 * data.byteAt 0x52

theorem coreEnd_le_attributeStart (data : Bytes) : coreEnd data ≤ attributeStart data :=
  Nat.le_add_right _ _

/-! ## How far each step looks -/

theorem coreEnd_eq_of_agree (h : AgreeTo limit data other) (hend : 100 ≤ limit) :
    coreEnd data = coreEnd other := by
  rw [coreEnd, coreEnd, h.byteAt_eq (by omega)]

theorem readExtension_eq_of_agree (h : AgreeTo limit data other) (hend : longCoreSize ≤ limit)
    (ino : Nat) : readExtension data ino = readExtension other ino := by
  have hend : 0xB0 ≤ limit := hend
  unfold readExtension inoOffset
  simp (disch := omega) only [h.beAt_eq, h.slice_eq, Timestamp.ofBytes_eq_of_agree h]

theorem readHead_eq_of_agree (h : AgreeTo limit data other) (hend : coreEnd data ≤ limit)
    (ino : Nat) : readHead data ino = readHead other ino := by
  have hshort : 100 ≤ limit := Nat.le_trans (hundred_le_coreEnd data) hend
  have hmagic : data.be16 0 = other.be16 0 := h.beAt_eq (by omega)
  have hversion : versionOf data = versionOf other := h.byteAt_eq (by unfold versionOffset; omega)
  have hadded : readAdded data ino = readAdded other ino := by
    unfold readAdded
    rw [← hversion]
    split
    · rename_i hlong
      rw [readExtension_eq_of_agree h (Nat.le_trans (Nat.le_of_eq (if_pos hlong).symm) hend)]
    · rfl
  have hlength : data.require "inode" shortCoreSize = other.require "inode" shortCoreSize :=
    h.require_eq hshort _
  have hwhole : data.require "inode" (coreSize (versionOf data)) =
      other.require "inode" (coreSize (versionOf data)) := h.require_eq hend _
  rw [readHead, readHead, hmagic, hadded, hlength, hwhole, hversion]

theorem assemble_eq_of_agree (h : AgreeTo limit data other) (hend : 100 ≤ limit) (ino : Nat)
    (extension : Option CoreExtension) (fork : Fork) :
    assemble data ino extension fork = assemble other ino extension fork := by
  unfold assemble versionOf versionOffset
  simp (disch := omega) only [h.beAt_eq, h.byteAt_eq, Timestamp.ofBytes_eq_of_agree h]

/-- The data fork ends where the attribute fork begins. -/
theorem forkBytes_eq_slice (hsome : data.byteAt 0x52 ≠ 0)
    (hlen : attributeStart data ≤ data.length) :
    forkBytes data = data.slice (coreEnd data) (attributeStart data - coreEnd data) := by
  have hend : forkEnd data = attributeStart data :=
    (if_neg hsome).trans (Nat.min_eq_right hlen)
  rw [forkBytes, hend]

theorem forkBytes_eq_of_agree (h : AgreeTo (attributeStart data) data other)
    (hsome : data.byteAt 0x52 ≠ 0) : forkBytes data = forkBytes other := by
  have hcore := hundred_le_coreEnd data
  have hstart := coreEnd_le_attributeStart data
  have hoffset : data.byteAt 0x52 = other.byteAt 0x52 := h.byteAt_eq (by omega)
  have hsame : coreEnd data = coreEnd other := coreEnd_eq_of_agree h (by omega)
  have hend : attributeStart data = attributeStart other := by
    rw [attributeStart, attributeStart, hoffset, hsame]
  rw [forkBytes_eq_slice hsome h.le_left, forkBytes_eq_slice (hoffset ▸ hsome) (hend ▸ h.le_right),
    ← hsame, ← hend]
  exact h.slice_eq (by omega)

/-- The data fork is decoded without a look at the attribute fork. -/
theorem readWindow_eq_of_agree (h : AgreeTo (attributeStart data) data other)
    (hsome : data.byteAt 0x52 ≠ 0) (hasType : Bool) :
    readWindow data hasType = readWindow other hasType := by
  have hcore := hundred_le_coreEnd data
  have hstart := coreEnd_le_attributeStart data
  have hsame : coreEnd data = coreEnd other := coreEnd_eq_of_agree h (by omega)
  rw [readWindow, readWindow, windowOf_eq (Nat.le_trans hstart h.le_left),
    windowOf_eq (hsame ▸ Nat.le_trans hstart h.le_right), forkBytes_eq_of_agree h hsome]
  simp (disch := omega) only [h.beAt_eq, h.byteAt_eq]

/-! ## The whole -/

/-- Two buffers that are the same up to the attribute fork, where there is one, decode to the same
inode or the same fault, and to the same text.  The version and the offset of the fork are among
the bytes that are the same. -/
theorem ofBytes_hides_attributes (hsome : data.byteAt 0x52 ≠ 0)
    (h : AgreeTo (attributeStart data) data other) (ino : Nat) (hasType : Bool) :
    ofBytes data ino hasType = ofBytes other ino hasType ∧
      (ofBytes data ino hasType).map render = (ofBytes other ino hasType).map render := by
  have hcore := hundred_le_coreEnd data
  have hstart := coreEnd_le_attributeStart data
  have hsame : ofBytes data ino hasType = ofBytes other ino hasType := by
    rw [ofBytes_eq, ofBytes_eq, readHead_eq_of_agree h hstart, readWindow_eq_of_agree h hsome]
    simp only [assemble_eq_of_agree h (by omega)]
  exact ⟨hsame, congrArg _ hsame⟩

/-- A symbolic link of twenty bytes, for which the data fork has eight. -/
def cutLink : Bytes :=
  letters ++ [0xA1, 0xFF, 2, 1] ++ List.replicate 50 0 ++ ofNatBE 8 20 ++ List.replicate 18 0 ++ [1]
    ++ List.replicate 17 0 ++ [0x2F, 0x6D, 0x6E, 0x74, 0x2F, 0x61, 0x62, 0x63]

/-- What follows are twelve bytes, which would complete the link, or many more. -/
theorem cutLink_hides_attributes :
    let short := cutLink ++ List.replicate 12 0x2E
    let long := cutLink ++ List.replicate 200 0xFF
    short.byteAt 0x52 ≠ 0 ∧ AgreeTo (attributeStart short) short long ∧
      ofBytes short 9 true = ofBytes long 9 true ∧
      (ofBytes short 9 true).map render = (ofBytes long 9 true).map render ∧
      ((ofBytes long 9 true).map Inode.fork).toOption =
        some (.symlink [0x2F, 0x6D, 0x6E, 0x74, 0x2F, 0x61, 0x62, 0x63]) := by
  intro short long
  have hsome : short.byteAt 0x52 ≠ 0 := by decide
  have hagree : AgreeTo (attributeStart short) short long := .of_append (by decide) _ _
  obtain ⟨hinode, htext⟩ := ofBytes_hides_attributes hsome hagree 9 true
  exact ⟨hsome, hagree, hinode, htext, by decide +kernel⟩

end Inode

end DiskScope.Xfs
