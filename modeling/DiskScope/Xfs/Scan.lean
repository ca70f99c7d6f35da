/-
  DiskScope/Xfs/Scan.lean --- looking for structures on a whole device.

  WHAT THIS FILE IS FOR.  A scan tests every position that is a multiple of a stride
  and reports the structures it finds, block after block.  The log has a record
  header in every block, so consecutive blocks with one are reported together,
  as one range in front of whatever else those blocks hold.

  HOW.  Between blocks a `Cursor` knows the next position, the range of log blocks that
  is still open, and the hits inside it, which wait for the range to end.  A
  `step` reads one block and releases the hits that are settled.  `toList` runs to
  the end; `next` hands out one item at a time and reads no further than it must.

  A read error ends a scan: what still waits for an open range is lost with it.
-/
import DiskScope.Xfs.Structure

set_option autoImplicit false

namespace DiskScope.Xfs

open Text

/-- Something that a scan finds. -/
inductive ScanHit where
  /-- A structure at a byte offset of a block. -/
  | found (block offset : Nat) (kind : Structure)
  /-- Consecutive blocks that each hold the header of a log record. -/
  | logRange (first last : Nat)
  deriving DecidableEq, Repr, Inhabited

/-- The line of a hit in a listing. -/
def ScanHit.line : ScanHit → String
  | found block offset kind => "block " ++ decimal block ++ " +" ++ decimal offset ++ ": " ++ kind.name
  | logRange first last => "blocks " ++ decimal first ++ "-" ++ decimal last ++ ": log"

/-- What is scanned and how finely. -/
structure Scan where
  image : Image
  blockSize : Nat
  stride : Nat
  /-- The position at which the scan ends. -/
  limit : Nat
  blockSize_pos : 0 < blockSize
  stride_pos : 0 < stride

namespace Scan

/-- The scan of the first `totalBlocks` blocks of an image; sizes of zero count as one. -/
def ofBlocks (image : Image) (blockSize totalBlocks stride : Nat) : Scan :=
  { image
    blockSize := max blockSize 1
    stride := max stride 1
    limit := totalBlocks * max blockSize 1
    blockSize_pos := by omega
    stride_pos := by omega }

/-- The same scan, which tells that it begins. -/
def start (image : Image) (blockSize totalBlocks stride : Nat) : Traced Scan := do
  Traced.debug ("scanning " ++ decimal totalBlocks ++ " blocks, stride " ++ decimal stride)
  pure (ofBlocks image blockSize totalBlocks stride)

/-! ## One block -/

/-- What the tested positions of a block hold, with their offsets; `rest` are the bytes of the block
from `offset` on. -/
def probe (stride : Nat) (hpos : 0 < stride) (offset : Nat) (rest : Bytes) :
    List (Nat × Structure) :=
  match rest with
  | [] => []
  | b :: bs =>
    ((Structure.identify (b :: bs)).map fun kind => (offset, kind)).toList
      ++ probe stride hpos (offset + stride) ((b :: bs).drop stride)
termination_by rest.length
decreasing_by simp only [List.length_drop, List.length_cons]; omega

/-- Where a scan stands between two blocks. -/
structure Cursor where
  /-- The next position to test. -/
  position : Nat
  /-- The first and the last block of the open range of log blocks. -/
  openRange : Option (Nat × Nat)
  /-- The hits in the blocks of the open range. -/
  held : List ScanHit
  deriving DecidableEq, Repr, Inhabited

/-- Where every scan begins. -/
def Cursor.first : Cursor := ⟨0, none, []⟩

/-- The hits that are settled once the open range has ended. -/
def Cursor.release (cursor : Cursor) : List ScanHit :=
  (cursor.openRange.map fun range => ScanHit.logRange range.1 range.2).toList ++ cursor.held

/-- What came of a step. -/
inductive Step where
  /-- The device has been scanned; these hits are the last. -/
  | ended (hits : List ScanHit)
  /-- A block could not be read. -/
  | failed (fault : Fault)
  /-- A block has been scanned and these hits are settled. -/
  | moved (hits : List ScanHit) (cursor : Cursor)

/-- The first position at or after the end of the block that a scan at `position` tests. -/
def positionAfter (scan : Scan) (position : Nat) : Nat :=
  let left := scan.blockSize - position % scan.blockSize
  position + (left + scan.stride - 1) / scan.stride * scan.stride

/-- Takes the structures found in `block` to a cursor that stands at `position`. -/
def settle (cursor : Cursor) (block position : Nat) (found : List (Nat × Structure)) : Step :=
  let hasLog := found.any fun hit => hit.2 == .logRecord
  let hits := (found.filter fun hit => hit.2 != .logRecord).map fun hit =>
    ScanHit.found block hit.1 hit.2
  if hasLog then
    match cursor.openRange with
    | some (first, last) =>
      if block = last + 1 then
        .moved [] ⟨position, some (first, block), cursor.held ++ hits⟩
      else .moved cursor.release ⟨position, some (block, block), hits⟩
    | none => .moved cursor.release ⟨position, some (block, block), hits⟩
  else .moved (cursor.release ++ hits) ⟨position, none, []⟩

/-- Scans the block of the cursor's position. -/
def step (scan : Scan) (cursor : Cursor) : Step :=
  if scan.limit ≤ cursor.position then .ended cursor.release
  else
    let block := cursor.position / scan.blockSize
    let offset := cursor.position % scan.blockSize
    match scan.image.read (block * scan.blockSize) scan.blockSize with
    | .error fault => .failed fault
    | .ok data =>
      settle cursor block (scan.positionAfter cursor.position)
        (probe scan.stride scan.stride_pos offset (data.drop offset))

theorem lt_positionAfter (scan : Scan) (position : Nat) :
    position < scan.positionAfter position := by
  have hmod := Nat.mod_lt position scan.blockSize_pos
  have hstride := scan.stride_pos
  have hdiv : 0 < (scan.blockSize - position % scan.blockSize + scan.stride - 1) / scan.stride :=
    Nat.div_pos (by omega) hstride
  have := Nat.mul_pos hdiv hstride
  simp only [positionAfter]
  omega

theorem position_settle {cursor next : Cursor} {block position : Nat}
    {found : List (Nat × Structure)} {hits : List ScanHit}
    (h : settle cursor block position found = .moved hits next) : next.position = position := by
  unfold settle at h
  grind

/-- A step that moves leaves less to scan. -/
theorem step_moved {scan : Scan} {cursor next : Cursor} {hits : List ScanHit}
    (h : scan.step cursor = .moved hits next) :
    scan.limit - next.position < scan.limit - cursor.position := by
  unfold step at h
  split at h
  · cases h
  · dsimp only at h
    split at h
    · cases h
    · rw [position_settle h]
      have := scan.lt_positionAfter cursor.position
      omega

/-! ## The whole scan -/

/-- Everything that a scan reports from `cursor` on; a fault can only be the last item. -/
def itemsFrom (scan : Scan) (cursor : Cursor) : List (Except Fault ScanHit) :=
  match h : scan.step cursor with
  | .ended hits => hits.map .ok
  | .failed fault => [.error fault]
  | .moved hits next => hits.map .ok ++ itemsFrom scan next
termination_by scan.limit - cursor.position
decreasing_by exact step_moved h

/-- Everything that a scan reports. -/
def toList (scan : Scan) : List (Except Fault ScanHit) :=
  scan.itemsFrom .first

/-! ## One item at a time -/

/-- What has been found but not handed out, and where the scan goes on, if it does. -/
structure Pending where
  queue : List ScanHit
  cursor : Option Cursor
  deriving DecidableEq, Repr, Inhabited

/-- A scan of which nothing has been handed out. -/
def Pending.first : Pending := ⟨[], some .first⟩

/-- Steps until something can be handed out, with nothing found so far. -/
def seek (scan : Scan) (cursor : Cursor) : Option (Except Fault ScanHit) × Pending :=
  match _h : scan.step cursor with
  | .failed fault => (some (.error fault), ⟨[], none⟩)
  | .ended hits => (hits.head?.map .ok, ⟨hits.tail, none⟩)
  | .moved hits next =>
    match hits with
    | [] => seek scan next
    | hit :: later => (some (.ok hit), ⟨later, some next⟩)
termination_by scan.limit - cursor.position
decreasing_by exact step_moved _h

/-- The next item, if there is one, and what is then pending. -/
def next (scan : Scan) (pending : Pending) : Option (Except Fault ScanHit) × Pending :=
  match pending.queue with
  | hit :: hits => (some (.ok hit), { pending with queue := hits })
  | [] =>
    match pending.cursor with
    | none => (none, pending)
    | some cursor => scan.seek cursor

/-- The next `count` items, fewer when the scan ends before. -/
def takeFrom (scan : Scan) : (count : Nat) → Pending → List (Except Fault ScanHit)
  | 0, _ => []
  | count + 1, pending =>
    match scan.next pending with
    | (none, _) => []
    | (some item, rest) => item :: takeFrom scan count rest

/-- The first `count` items. -/
def take (scan : Scan) (count : Nat) : List (Except Fault ScanHit) :=
  scan.takeFrom count .first

end Scan

end DiskScope.Xfs
