/-
  DiskScope/Proofs/Bytes/Records.lean --- rows of records of one size.

  WHAT THIS FILE IS FOR.  Records of one size stand one behind the other, with no mark between
  them: a reader cuts the bytes into pieces and decodes each.  A `RecordCodec` is an encoding
  with its two laws.  Values that have room are decoded where their encoding begins the bytes,
  and bytes that are long enough are the encoding of what they decode to.  Both laws then
  hold of rows.

  LAYOUTS.  A record is laid out from its numbers: `number` is one of them, `append` puts one
  part behind another, and `rename` gives the parts their names.

  NUMBERS.  A number of several bytes is at the same time a row of shorter ones, which is how
  one place can be read in two layouts (`beAt_add`).

  MAIN STATEMENTS.

      decodeAll_encodeAll    a row is decoded value by value, whatever follows it
      encodeAll_decodeAll    and nothing of it is lost
      toNatBE_append         the number of two strings in a row
-/
import DiskScope.Proofs.Bytes.Holds

set_option autoImplicit false

namespace DiskScope

namespace Bytes

/-! ## Numbers in a row -/

theorem toNatLE_append (front back : Bytes) :
    toNatLE (front ++ back) = toNatLE front + 1 <<< (8 * front.length) * toNatLE back := by
  induction front with
  | nil => simp [toNatLE]
  | cons byte rest ih =>
    rw [List.cons_append, toNatLE, ih, toNatLE, List.length_cons, values_succ, Nat.mul_add,
      Nat.mul_assoc, Nat.add_assoc]

/-- What stands in front counts as often as what stands behind has values. -/
theorem toNatBE_append (front back : Bytes) :
    toNatBE (front ++ back) = toNatBE front * 1 <<< (8 * back.length) + toNatBE back := by
  rw [toNatBE, List.reverse_append, toNatLE_append, List.length_reverse, Nat.add_comm,
    Nat.mul_comm, toNatBE, toNatBE]

/-- A number is made of the two that it covers. -/
theorem beAt_add {data : Bytes} {off width more : Nat} (h : off + width + more ≤ data.length) :
    data.beAt off (width + more) =
      data.beAt off width * 1 <<< (8 * more) + data.beAt (off + width) more := by
  rw [beAt, slice_add, toNatBE_append, length_slice_of_le h, beAt, beAt]

/-- The digits of the number at an offset are the bytes there. -/
theorem ofNatBE_beAt {data : Bytes} {off width : Nat} (h : off + width ≤ data.length) :
    ofNatBE width (data.beAt off width) = data.slice off width :=
  ((holds_number.2 ⟨h, rfl⟩).1.slice_eq (length_ofNatBE _ _)).symm

end Bytes

/-! ## Records -/

/-- An encoding of values in `size` bytes each. -/
structure RecordCodec (α : Type) (size : Nat) where
  encode : α → Bytes
  decode : Bytes → α
  /-- The value has room in its bytes. -/
  Fits : α → Prop
  length_encode : ∀ value, (encode value).length = size
  /-- A value that has room is decoded where its encoding stands. -/
  decode_encode : ∀ {value data}, Fits value → encode value <+: data → decode data = value
  fits_decode : ∀ {data}, size ≤ data.length → Fits (decode data)
  /-- Bytes are the encoding of the value that they decode to. -/
  encode_decode : ∀ {data}, size ≤ data.length → encode (decode data) = data.take size

namespace RecordCodec

/-! ## Layouts -/

section Layouts

variable {α β : Type} {size more : Nat}

/-- A number of `width` bytes. -/
def number (width : Nat) : RecordCodec Nat width where
  encode := Bytes.ofNatBE width
  decode data := data.beAt 0 width
  Fits n := n < 1 <<< (8 * width)
  length_encode := Bytes.length_ofNatBE width
  decode_encode hfits hleading := (Bytes.holds_zero_iff.2 hleading).beAt_eq hfits
  fits_decode _ := Bytes.beAt_lt _ _ _
  encode_decode h := Bytes.ofNatBE_beAt (Nat.le_trans (Nat.le_of_eq (Nat.zero_add width)) h)

/-- One record behind another. -/
def append (front : RecordCodec α size) (back : RecordCodec β more) :
    RecordCodec (α × β) (size + more) where
  encode pair := front.encode pair.1 ++ back.encode pair.2
  decode data := (front.decode data, back.decode (data.drop size))
  Fits pair := front.Fits pair.1 ∧ back.Fits pair.2
  length_encode pair := by rw [List.length_append, front.length_encode, back.length_encode]
  decode_encode := by
    rintro ⟨first, second⟩ data ⟨hfirst, hsecond⟩ ⟨rest, rfl⟩
    have hbehind : (front.encode first ++ back.encode second ++ rest).drop size =
        back.encode second ++ rest := by
      rw [List.append_assoc, List.drop_left' (front.length_encode first)]
    refine Prod.ext (front.decode_encode hfirst ?_) (back.decode_encode hsecond ?_)
    · exact ⟨back.encode second ++ rest, (List.append_assoc _ _ _).symm⟩
    · exact ⟨rest, hbehind.symm⟩
  fits_decode := by
    intro data h
    have hbehind : more ≤ (data.drop size).length := by rw [List.length_drop]; omega
    exact ⟨front.fits_decode (by omega), back.fits_decode hbehind⟩
  encode_decode := by
    intro data h
    have hbehind : more ≤ (data.drop size).length := by rw [List.length_drop]; omega
    rw [front.encode_decode (by omega), back.encode_decode hbehind, List.take_add]

/-- Values that are made of those of a codec, each of exactly one. -/
def rename (codec : RecordCodec α size) (make : α → β) (parts : β → α)
    (hparts : ∀ value, parts (make value) = value) (hmake : ∀ value, make (parts value) = value) :
    RecordCodec β size where
  encode value := codec.encode (parts value)
  decode data := make (codec.decode data)
  Fits value := codec.Fits (parts value)
  length_encode value := codec.length_encode (parts value)
  decode_encode hfits hleading := by rw [codec.decode_encode hfits hleading, hmake]
  fits_decode h := by
    rw [hparts]
    exact codec.fits_decode h
  encode_decode h := by rw [hparts, codec.encode_decode h]

@[simp] theorem fits_number {width n : Nat} : (number width).Fits n ↔ n < 1 <<< (8 * width) :=
  Iff.rfl

@[simp] theorem fits_append {front : RecordCodec α size} {back : RecordCodec β more}
    {pair : α × β} : (front.append back).Fits pair ↔ front.Fits pair.1 ∧ back.Fits pair.2 :=
  Iff.rfl

@[simp] theorem fits_rename {codec : RecordCodec α size} {make : α → β} {parts : β → α}
    {hparts : ∀ value, parts (make value) = value} {hmake : ∀ value, make (parts value) = value}
    {value : β} : (codec.rename make parts hparts hmake).Fits value ↔ codec.Fits (parts value) :=
  Iff.rfl

end Layouts

/-! ## Rows -/

variable {α : Type} {size : Nat} (codec : RecordCodec α size)

/-- Values one behind the other. -/
def encodeAll (values : List α) : Bytes := values.flatMap codec.encode

/-- The first `count` values. -/
def decodeAll (count : Nat) (data : Bytes) : List α := (Bytes.cut size count data).map codec.decode

@[simp] theorem length_decodeAll (count : Nat) (data : Bytes) :
    (codec.decodeAll count data).length = count := by
  rw [decodeAll, List.length_map, Bytes.length_cut]

theorem encodeAll_cons (value : α) (rest : List α) :
    codec.encodeAll (value :: rest) = codec.encode value ++ codec.encodeAll rest :=
  List.flatMap_cons

theorem decodeAll_succ (count : Nat) (data : Bytes) :
    codec.decodeAll (count + 1) data =
      codec.decode (data.take size) :: codec.decodeAll count (data.drop size) := rfl

@[simp] theorem length_encodeAll (values : List α) :
    (codec.encodeAll values).length = values.length * size := by
  induction values with
  | nil => simp [encodeAll]
  | cons value rest ih =>
    rw [encodeAll_cons, List.length_append, codec.length_encode, ih, List.length_cons,
      Nat.succ_mul, Nat.add_comm]

/-- Nothing behind a record is looked at. -/
theorem decode_take {data : Bytes} (h : size ≤ data.length) :
    codec.decode (data.take size) = codec.decode data :=
  codec.decode_encode (codec.fits_decode h)
    (codec.encode_decode h ▸ List.prefix_refl (data.take size))

/-- Values that have room are all read back, whatever follows them. -/
theorem decodeAll_encodeAll {values : List α} (hfits : ∀ value ∈ values, codec.Fits value)
    (trailing : Bytes) :
    codec.decodeAll values.length (codec.encodeAll values ++ trailing) = values := by
  induction values with
  | nil => rfl
  | cons value rest ih =>
    obtain ⟨hvalue, hrest⟩ := List.forall_mem_cons.1 hfits
    have hsize := codec.length_encode value
    rw [List.length_cons, decodeAll_succ, encodeAll_cons, List.append_assoc,
      List.take_left' hsize, List.drop_left' hsize, ih hrest,
      codec.decode_encode hvalue (List.prefix_refl _)]

/-- Bytes that are long enough are the row of the values that they decode to, which have room. -/
theorem encodeAll_decodeAll {count : Nat} {data : Bytes} (h : count * size ≤ data.length) :
    (∀ value ∈ codec.decodeAll count data, codec.Fits value) ∧
      codec.encodeAll (codec.decodeAll count data) = data.take (count * size) := by
  induction count generalizing data with
  | zero =>
    rw [Nat.zero_mul]
    exact ⟨List.forall_mem_nil _, rfl⟩
  | succ count ih =>
    rw [Nat.succ_mul] at h
    have hfirst : size ≤ data.length := Nat.le_trans (Nat.le_add_left _ _) h
    have hbehind : count * size ≤ (data.drop size).length := by rw [List.length_drop]; omega
    obtain ⟨hfits, hrest⟩ := ih hbehind
    rw [decodeAll_succ, codec.decode_take hfirst]
    refine ⟨List.forall_mem_cons.2 ⟨codec.fits_decode hfirst, hfits⟩, ?_⟩
    rw [encodeAll_cons, codec.encode_decode hfirst, hrest, Nat.succ_mul, Nat.add_comm,
      List.take_add]

/-- The `i`-th value is decoded from the bytes at `i * size`. -/
theorem getElem?_decodeAll {count i : Nat} {data : Bytes} (hi : i < count)
    (h : count * size ≤ data.length) :
    (codec.decodeAll count data)[i]? = some (codec.decode (data.drop (i * size))) := by
  have hlen : size ≤ (data.drop (i * size)).length := by
    have hstep : (i + 1) * size ≤ count * size := Nat.mul_le_mul_right size hi
    rw [Nat.succ_mul] at hstep
    rw [List.length_drop]
    omega
  rw [decodeAll, List.getElem?_map, Bytes.getElem?_cut data hi, Option.map_some, Bytes.slice,
    codec.decode_take hlen]

end RecordCodec

end DiskScope
