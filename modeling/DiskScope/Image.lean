/-
  DiskScope/Image.lean --- addressed reads of a disk image.

  WHAT THIS FILE IS FOR.  An image is a size and a byte at each position below it.
  Reading is all or nothing: `len` bytes at an offset, or a fault when not all of
  them lie inside the image.  Reading no bytes succeeds wherever a read can start.

  WHERE A READ CAN START.  Anywhere in memory.  In a file there is a last position that
  can be sought, and a read beyond it fails before its length matters.  What lies
  inside an image can be read in any case.

  An image is not a list, so that a device of terabytes with a few written spots
  is as cheap as a small one: `Image.zeros` is blank, and `Image.overlay` writes a
  spot.  A `BlockReader` adds the block size that block numbers are counted in.

  WHERE A BLOCK BEGINS is a product of two words of 64 bits, and the product is a word
  again.  One that is too long wraps around, and another place of the image is read.  What
  lies inside an image is always found, since images are shorter than that.

  MAIN STATEMENTS.  `read_eq_ok_iff` says exactly when a read succeeds and with
  which bytes; `length_of_read` that it never answers a partial buffer;
  `readBlocks_eq_read` that blocks are where they should be if words are long enough.
-/
import DiskScope.Traced

set_option autoImplicit false

namespace DiskScope

/-- The most bytes that an image has: lengths of files and of what is in memory are signed words of
64 bits. -/
def Image.longest : Nat := (1 <<< 63) - 1

/-- The contents of a device. -/
structure Image where
  /-- The number of bytes. -/
  size : Nat
  /-- The byte at a position; positions past the end are never looked at. -/
  byteAt : Nat → UInt8
  /-- The last position that can be sought; none in memory, where all can. -/
  lastSought : Option Nat
  size_le : size ≤ Image.longest := by decide

namespace Image

/-- The image in memory with `contents` as its bytes. -/
def ofByteArray (contents : ByteArray) : Image where
  size := min contents.size longest
  byteAt := fun position => contents[position]?.getD 0
  lastSought := none
  size_le := Nat.min_le_right _ _

/-- An image of `size` zero bytes in memory, as far as an image can have them. -/
def zeros (size : Nat) : Image where
  size := min size longest
  byteAt := fun _ => 0
  lastSought := none
  size_le := Nat.min_le_right _ _

/-- The last position in a file whose blocks of 4096 bytes are counted with 32 bits. -/
def lastInFile : Nat := ((1 <<< 32) - 1) * 4096

/-- The same image in a file. -/
def inFile (image : Image) : Image := { image with lastSought := some lastInFile }

/-- What is left of an image whose contents have been dropped. -/
def emptied (image : Image) : Image := { image with size := 0, size_le := Nat.zero_le _ }

/-- The image with `patch` written over it from `offset`, cut at the end of the image. -/
def overlay (image : Image) (offset : Nat) (patch : ByteArray) : Image :=
  { image with
    byteAt := fun position =>
      if offset ≤ position then (patch[position - offset]?).getD (image.byteAt position)
      else image.byteAt position }

/-- The bytes from `offset` on, whether or not they lie inside. -/
def bytesFrom (image : Image) : Nat → Nat → Bytes
  | _, 0 => []
  | offset, len + 1 => image.byteAt offset :: image.bytesFrom (offset + 1) len

/-- Whether a read can start at `offset`. -/
def reaches (image : Image) (offset : Nat) : Bool :=
  image.lastSought.all (offset ≤ ·)

/-- The `len` bytes at `offset`, all of which must lie inside the image. -/
def read (image : Image) (offset len : Nat) : Except Fault Bytes :=
  if offset + len ≤ image.size then .ok (image.bytesFrom offset len)
  else if !image.reaches offset then .error .outOfReach
  else if len = 0 then .ok []
  else .error .shortRead

@[simp] theorem length_bytesFrom (image : Image) (offset len : Nat) :
    (image.bytesFrom offset len).length = len := by
  induction len generalizing offset with
  | zero => rfl
  | succ n ih => simp [bytesFrom, ih]

theorem getElem?_bytesFrom (image : Image) {offset len i : Nat} (h : i < len) :
    (image.bytesFrom offset len)[i]? = some (image.byteAt (offset + i)) := by
  induction len generalizing offset i with
  | zero => omega
  | succ n ih =>
    cases i with
    | zero => simp [bytesFrom]
    | succ j =>
      rw [bytesFrom, List.getElem?_cons_succ, ih (by omega)]
      congr 2; omega

theorem bytesFrom_add (image : Image) (offset m n : Nat) :
    image.bytesFrom offset (m + n) = image.bytesFrom offset m ++ image.bytesFrom (offset + m) n := by
  induction m generalizing offset with
  | zero => simp [bytesFrom]
  | succ m ih =>
    rw [Nat.succ_add, bytesFrom, bytesFrom, ih, List.cons_append]
    congr 3; omega

/-- A read succeeds exactly when it is inside, or empty and within reach, with the bytes of the
image. -/
theorem read_eq_ok_iff {image : Image} {offset len : Nat} {data : Bytes} :
    image.read offset len = .ok data ↔
      (offset + len ≤ image.size ∨ len = 0 ∧ image.reaches offset = true) ∧
        data = image.bytesFrom offset len := by
  unfold read
  by_cases h : offset + len ≤ image.size
  · simp only [h, if_true, true_or, true_and, Except.ok.injEq]
    exact eq_comm
  · cases hreach : image.reaches offset
    · simp [h]
    · by_cases hlen : len = 0
      · subst hlen
        simp only [h, if_false, Bool.not_true, Bool.false_eq_true, if_true, bytesFrom, and_self, or_true,
          true_and, Except.ok.injEq]
        exact eq_comm
      · simp [h, hlen]

/-- A read of something succeeds exactly when it is inside. -/
theorem read_eq_ok_iff_of_pos {image : Image} {offset len : Nat} {data : Bytes} (h : 0 < len) :
    image.read offset len = .ok data ↔
      offset + len ≤ image.size ∧ data = image.bytesFrom offset len := by
  rw [read_eq_ok_iff]
  have : len ≠ 0 := by omega
  simp [this]

/-- A read that succeeds is never short. -/
theorem length_of_read {image : Image} {offset len : Nat} {data : Bytes}
    (h : image.read offset len = .ok data) : data.length = len := by
  rw [(read_eq_ok_iff.1 h).2, length_bytesFrom]

/-- A read that fails is not inside, and starts out of reach or is a short one. -/
theorem read_eq_error_iff {image : Image} {offset len : Nat} {fault : Fault} :
    image.read offset len = .error fault ↔
      image.size < offset + len ∧
        (image.reaches offset = false ∧ fault = .outOfReach ∨
          image.reaches offset = true ∧ len ≠ 0 ∧ fault = .shortRead) := by
  unfold read
  split
  · rename_i h
    simp [Nat.not_lt.2 h]
  · rename_i h
    have hsize : image.size < offset + len := by omega
    cases hreach : image.reaches offset
    · simp [hsize, eq_comm]
    · by_cases hlen : len = 0
      · simp [hlen]
      · simp [hsize, hlen, eq_comm]

/-- A read that fails is a failed access. -/
theorem isIo_of_read {image : Image} {offset len : Nat} {fault : Fault}
    (h : image.read offset len = .error fault) : fault.isIo = true := by
  obtain ⟨_, ⟨_, rfl⟩ | ⟨_, _, rfl⟩⟩ := read_eq_error_iff.1 h
  · rfl
  · rfl

/-- A read of something that is not inside fails. -/
theorem exists_read_eq_error {image : Image} {offset len : Nat} (hlen : 0 < len)
    (h : image.size < offset + len) : ∃ fault, image.read offset len = .error fault := by
  cases hread : image.read offset len with
  | error fault => exact ⟨fault, rfl⟩
  | ok data => exact absurd ((read_eq_ok_iff_of_pos hlen).1 hread).1 (Nat.not_le.2 h)

end Image

/-! ## Blocks -/

/-- What a word of 64 bits has of a number; one that is too long wraps around. -/
def wrap (number : Nat) : Nat := (UInt64.ofNat number).toNat

theorem wrap_of_lt {number : Nat} (h : number < UInt64.size) : wrap number = number :=
  UInt64.toNat_ofNat_of_lt' h

/-- A wrapped number can be counted on from, as far as words go. -/
theorem wrap_add {number more : Nat} (h : wrap number + more < UInt64.size) :
    wrap (number + more) = wrap number + more := by
  rw [wrap, UInt64.toNat_ofNat'] at h
  rw [wrap, wrap, UInt64.toNat_ofNat', UInt64.toNat_ofNat', ← Nat.mod_add_mod]
  exact Nat.mod_eq_of_lt h

/-- No position in an image is too long for a word. -/
theorem Image.size_lt (image : Image) : image.size < UInt64.size :=
  Nat.lt_of_le_of_lt image.size_le (by decide)

/-- An image whose space is counted in blocks. -/
structure BlockReader where
  image : Image
  /-- The number of bytes in a block. -/
  blockSize : Nat

namespace BlockReader

/-- The `len` bytes at a byte offset. -/
def readRaw (reader : BlockReader) (offset len : Nat) : Except Fault Bytes :=
  reader.image.read offset len

/-- The number of bytes of `count` blocks, as far as a word has it. -/
def span (reader : BlockReader) (count : Nat) : Nat := wrap (count * reader.blockSize)

/-- `count` whole blocks from block `block`. -/
def readBlocks (reader : BlockReader) (block count : Nat) : Except Fault Bytes :=
  reader.readRaw (reader.span block) (reader.span count)

/-- The contents of one block. -/
def block (reader : BlockReader) (number : Nat) : Except Fault Bytes :=
  reader.readBlocks number 1

/-- The same image counted in blocks of another size. -/
def withBlockSize (reader : BlockReader) (blockSize : Nat) : BlockReader :=
  { reader with blockSize }

variable {reader : BlockReader} {first count : Nat}

/-- Where words are long enough, blocks are read at the product. -/
theorem readBlocks_eq_read (hstart : first * reader.blockSize < UInt64.size)
    (hlen : count * reader.blockSize < UInt64.size) :
    reader.readBlocks first count =
      reader.image.read (first * reader.blockSize) (count * reader.blockSize) := by
  rw [readBlocks, span, span, wrap_of_lt hstart, wrap_of_lt hlen, readRaw]

/-- One block is read where a word has its place. -/
theorem block_eq_read (hsize : reader.blockSize < UInt64.size) (number : Nat) :
    reader.block number =
      reader.image.read (wrap (number * reader.blockSize)) reader.blockSize := by
  show reader.image.read (reader.span number) (wrap (1 * reader.blockSize)) = _
  rw [Nat.one_mul, wrap_of_lt hsize, span]

/-- Blocks inside the image can be read. -/
theorem readBlocks_inside (h : (first + count) * reader.blockSize ≤ reader.image.size) :
    reader.readBlocks first count =
      .ok (reader.image.bytesFrom (first * reader.blockSize) (count * reader.blockSize)) := by
  rw [Nat.add_mul] at h
  have hsize := reader.image.size_lt
  rw [readBlocks_eq_read (by omega) (by omega)]
  exact Image.read_eq_ok_iff.2 ⟨.inl h, rfl⟩

end BlockReader

end DiskScope
