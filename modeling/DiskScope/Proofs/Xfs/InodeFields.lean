/-
  DiskScope/Proofs/Xfs/InodeFields.lean --- every field of an inode is read where it is written.

  WHAT THIS FILE IS FOR.  The core of an inode has some thirty fields of five widths, at offsets
  that were written down by hand, with two places for the link count and two encodings of
  timestamps.  `slots` is the table of an inode, and `encode` writes it over a buffer in which
  anything may have stood.  If two fields overlapped, or one were read with another
  width or from another place than it is written with, some inode would not be read back.

  MAIN STATEMENTS.

      slots_wellPlaced     no two fields overlap, in any layout
      ofBytes_encode       decoding gives back every field, and fails only if the data fork does
      encode_of_ofBytes    writing an inode where it was read changes nothing
-/
import DiskScope.Proofs.Bytes.Slots
import DiskScope.Proofs.Xfs.InodeVerdict

set_option autoImplicit false

namespace DiskScope.Xfs

open Unix Bytes

/-! ## Formats -/

namespace ForkFormat

/-- The code of a format. -/
def code : ForkFormat → Nat
  | device => 0
  | inlined => 1
  | extents => 2
  | tree => 3
  | uuid => 4
  | unknown code => code

theorem code_ofCode (byte : Nat) : (ofCode byte).code = byte := by
  unfold ofCode
  split <;> rfl

end ForkFormat

/-! ## Timestamps -/

namespace Timestamp

/-- The count of nanoseconds that makes a long timestamp. -/
def longCount (time : Timestamp) : Int :=
  (time.seconds + longEpoch) * perSecond + time.nanoseconds

/-- The table of a timestamp at `off`. -/
def slots (time : Timestamp) (off : Nat) (isLong : Bool) : List Slot :=
  if isLong then [⟨off, 8, time.longCount.toNat⟩]
  else [⟨off, 4, (time.seconds % 0x100000000).toNat⟩, ⟨off + 4, 4, time.nanoseconds⟩]

/-- A timestamp that can be stored: a long one counts the nanoseconds of a second and does not
lie before the first that can be counted, a short one has seconds of 32 bits. -/
def Expressible (time : Timestamp) (isLong : Bool) : Prop :=
  if isLong then time.nanoseconds < perSecond ∧ 0 ≤ time.longCount
  else -0x80000000 ≤ time.seconds ∧ time.seconds < 0x80000000

instance (time : Timestamp) (isLong : Bool) : Decidable (time.Expressible isLong) :=
  inferInstanceAs (Decidable (if isLong then _ else _))

variable {data : Bytes} {time : Timestamp} {off : Nat} {isLong : Bool}

theorem signedWord_emod {seconds : Int} (hlow : -0x80000000 ≤ seconds)
    (hhigh : seconds < 0x80000000) :
    signedWord (seconds % 0x100000000).toNat = seconds := by
  unfold signedWord
  split <;> omega

/-- A count is taken apart into the seconds and nanoseconds that it was made of. -/
theorem longCount_div_mod (hnanoseconds : time.nanoseconds < perSecond) (hcount : 0 ≤ time.longCount) :
    ((time.longCount.toNat / perSecond : Nat) : Int) - (longEpoch : Int) = time.seconds ∧
      time.longCount.toNat % perSecond = time.nanoseconds := by
  unfold longCount perSecond longEpoch at *
  omega

/-- A timestamp is read back in the encoding that it was written in. -/
theorem ofBytes_of_reads (h : time.Expressible isLong) (hreads : data.Reads (time.slots off isLong)) :
    ofBytes data off isLong = time := by
  cases isLong with
  | true =>
    obtain ⟨hnanoseconds, hcount⟩ : time.nanoseconds < perSecond ∧ 0 ≤ time.longCount := h
    obtain ⟨hseconds, hrest⟩ := longCount_div_mod hnanoseconds hcount
    have hvalue : data.be64 off = time.longCount.toNat := (reads_cons.1 hreads).1
    simp only [ofBytes, if_true, hvalue, hseconds, hrest]
  | false =>
    obtain ⟨hlow, hhigh⟩ : -0x80000000 ≤ time.seconds ∧ time.seconds < 0x80000000 := h
    obtain ⟨hseconds, hrest⟩ := reads_cons.1 hreads
    obtain ⟨hnanoseconds, _⟩ := reads_cons.1 hrest
    have hseconds : data.be32 off = (time.seconds % 0x100000000).toNat := hseconds
    have hnanoseconds : data.be32 (off + 4) = time.nanoseconds := hnanoseconds
    simp only [ofBytes, Bool.false_eq_true, if_false, hseconds, hnanoseconds,
      signedWord_emod hlow hhigh]

theorem reads_slots (data : Bytes) (off : Nat) (isLong : Bool) :
    data.Reads ((ofBytes data off isLong).slots off isLong) := by
  cases isLong with
  | true =>
    refine reads_cons.2 ⟨?_, reads_nil⟩
    show data.be64 off = (longCount (ofBytes data off true)).toNat
    simp only [longCount, ofBytes, if_true, perSecond, longEpoch]
    omega
  | false =>
    have hword : data.be32 off < 0x100000000 := beAt_lt data off 4
    refine reads_cons.2 ⟨?_, reads_cons.2 ⟨rfl, reads_nil⟩⟩
    show data.be32 off = (signedWord (data.be32 off) % 0x100000000).toNat
    unfold signedWord
    split <;> omega

theorem expressible_ofBytes (data : Bytes) (off : Nat) (isLong : Bool) :
    (ofBytes data off isLong).Expressible isLong := by
  cases isLong with
  | true =>
    refine ⟨Nat.mod_lt _ (by decide), ?_⟩
    simp only [longCount, ofBytes, if_true, perSecond, longEpoch]
    omega
  | false =>
    have hword : data.be32 off < 0x100000000 := beAt_lt data off 4
    show -0x80000000 ≤ signedWord (data.be32 off) ∧ signedWord (data.be32 off) < 0x80000000
    unfold signedWord
    split <;> omega

end Timestamp

namespace Inode

/-! ## The table of an inode -/

/-- Whether the timestamps of an inode are long, which one bit decides for all of them. -/
def isLong (inode : Inode) : Bool :=
  inode.extension.any fun added => asksLongTimes added.flags2

/-- The link count, which the first version keeps elsewhere and in fewer bits. -/
def linkSlot (inode : Inode) : Slot :=
  if inode.version = 1 then ⟨0x06, 2, inode.linkCount⟩ else ⟨0x10, 4, inode.linkCount⟩

/-- The fields of every version that are one number. -/
def coreSlots (inode : Inode) : List Slot :=
  [ ⟨0x00, 2, Magic.inode⟩,
    ⟨0x02, 2, inode.mode⟩,
    ⟨0x04, 1, inode.version⟩,
    ⟨0x05, 1, inode.format.code⟩,
    ⟨0x08, 4, inode.uid⟩,
    ⟨0x0C, 4, inode.gid⟩,
    inode.linkSlot,
    ⟨0x38, 8, inode.size⟩,
    ⟨0x40, 8, inode.blockCount⟩,
    ⟨0x48, 4, inode.extentSize⟩,
    ⟨0x4C, 4, inode.extentCount⟩,
    ⟨0x50, 2, inode.attrExtentCount⟩,
    ⟨0x52, 1, inode.forkOffset⟩,
    ⟨0x53, 1, inode.attrFormat⟩,
    ⟨0x5A, 2, inode.flags⟩,
    ⟨0x5C, 4, inode.generation⟩ ]

/-- The timestamps of every version. -/
def timeSlots (inode : Inode) : List Slot :=
  inode.accessed.slots 0x20 inode.isLong ++ inode.modified.slots 0x28 inode.isLong
    ++ inode.changed.slots 0x30 inode.isLong

/-- What version 3 adds. -/
def extensionSlots (added : CoreExtension) : List Slot :=
  [ ⟨0x64, 4, added.crc⟩,
    ⟨0x68, 8, added.changeCount⟩,
    ⟨0x70, 8, added.lsn⟩,
    ⟨0x78, 8, added.flags2⟩,
    ⟨0x80, 4, added.cowExtentSize⟩,
    ⟨0x98, 8, added.ino⟩,
    ⟨0xA0, 16, toNatBE added.uuid⟩ ]
    ++ added.created.slots 0x90 (asksLongTimes added.flags2)

/-- The table of an inode: all its fields but the data fork. -/
def slots (inode : Inode) : List Slot :=
  inode.coreSlots ++ inode.timeSlots ++ inode.extension.toList.flatMap extensionSlots

/-- The core of an inode, written over a buffer in which anything may have stood. -/
def encode (inode : Inode) (filling : Bytes) : Bytes := filling.fill inode.slots

/-- An inode that can be stored. -/
structure Storable (inode : Inode) : Prop where
  fits : ∀ slot ∈ inode.slots, slot.Fits
  fileType_eq : inode.fileType = .ofMode inode.mode
  format_eq : .ofCode inode.format.code = inode.format
  extension_isSome : inode.extension.isSome = decide (3 ≤ inode.version)
  /-- What version 3 adds is about the same inode. -/
  ino_eq : ∀ added ∈ inode.extension, added.ino = inode.ino
  uuid_length : ∀ added ∈ inode.extension, added.uuid.length = 16
  accessed_expressible : inode.accessed.Expressible inode.isLong
  modified_expressible : inode.modified.Expressible inode.isLong
  changed_expressible : inode.changed.Expressible inode.isLong
  created_expressible : ∀ added ∈ inode.extension, added.created.Expressible inode.isLong

section table

variable {inode : Inode} {data : Bytes}

/-- In no layout do two fields overlap, and all lie in the core. -/
theorem slots_wellPlaced (inode : Inode) :
    WellPlaced inode.slots (if inode.extension.isSome then longCoreSize else shortCoreSize) := by
  unfold slots coreSlots timeSlots linkSlot isLong
  -- The layout depends on the version, on whether there is an extension, and on one bit of that.
  cases inode.extension with
  | none => split <;> exact of_decide_eq_true rfl
  | some added =>
    rw [Option.toList_some, List.flatMap_singleton, Option.any_some, extensionSlots]
    cases asksLongTimes added.flags2 with
    | false => split <;> exact of_decide_eq_true rfl
    | true => split <;> exact of_decide_eq_true rfl

theorem Storable.wellPlaced (h : inode.Storable) :
    WellPlaced inode.slots (coreSize inode.version) := by
  have hplaced := inode.slots_wellPlaced
  simp only [h.extension_isSome, decide_eq_true_eq] at hplaced
  exact hplaced

theorem Storable.length_encode (h : inode.Storable) {filling : Bytes}
    (hfilling : filling.length = coreSize inode.version) :
    (inode.encode filling).length = coreSize inode.version :=
  (length_fill (hfilling ▸ h.wellPlaced.2)).trans hfilling

/-- Whatever stood in the buffer and stands behind the core, every field is read. -/
theorem Storable.reads_encode (h : inode.Storable) {filling : Bytes}
    (hfilling : filling.length = coreSize inode.version) (more : Bytes) :
    (inode.encode filling ++ more).Reads inode.slots :=
  (reads_fill h.fits (hfilling ▸ h.wellPlaced)).append
    (h.length_encode hfilling ▸ h.wellPlaced.2) more

/-! ## Reading the table -/

/-- The numbers of the core, each where the decoder looks for it. -/
structure CoreRead (data : Bytes) (inode : Inode) : Prop where
  magic : data.be16 0x00 = Magic.inode
  mode : data.be16 0x02 = inode.mode
  version : versionOf data = inode.version
  format : data.byteAt 0x05 = inode.format.code
  uid : data.be32 0x08 = inode.uid
  gid : data.be32 0x0C = inode.gid
  linkCount : (if inode.version = 1 then data.be16 0x06 else data.be32 0x10) = inode.linkCount
  size : data.be64 0x38 = inode.size
  blockCount : data.be64 0x40 = inode.blockCount
  extentSize : data.be32 0x48 = inode.extentSize
  extentCount : data.be32 0x4C = inode.extentCount
  attrExtentCount : data.be16 0x50 = inode.attrExtentCount
  forkOffset : data.byteAt 0x52 = inode.forkOffset
  attrFormat : data.byteAt 0x53 = inode.attrFormat
  flags : data.be16 0x5A = inode.flags
  generation : data.be32 0x5C = inode.generation

theorem linkCount_of_reads
    (h : data.beAt inode.linkSlot.offset inode.linkSlot.width = inode.linkSlot.value) :
    (if inode.version = 1 then data.be16 0x06 else data.be32 0x10) = inode.linkCount := by
  unfold linkSlot at h
  by_cases hfirst : inode.version = 1
  · rw [if_pos hfirst] at h ⊢
    exact h
  · rw [if_neg hfirst] at h ⊢
    exact h

/-- The decoder looks for every number of the core where the table has it. -/
theorem coreRead_of_reads (h : data.Reads inode.coreSlots) : CoreRead data inode := by
  simp only [coreSlots, reads_cons] at h
  obtain ⟨hmagic, hmode, hversion, hformat, huid, hgid, hlink,
    hsize, hblocks, hextentSize, hextents, hattr, hforkOffset,
    hattrFormat, hflags, hgeneration, _⟩ := h
  exact
    { magic := hmagic
      mode := hmode
      version := (byteAt_eq_beAt data 0x04).trans hversion
      format := (byteAt_eq_beAt data 0x05).trans hformat
      uid := huid
      gid := hgid
      linkCount := linkCount_of_reads hlink
      size := hsize
      blockCount := hblocks
      extentSize := hextentSize
      extentCount := hextents
      attrExtentCount := hattr
      forkOffset := (byteAt_eq_beAt data 0x52).trans hforkOffset
      attrFormat := (byteAt_eq_beAt data 0x53).trans hattrFormat
      flags := hflags
      generation := hgeneration }

theorem CoreRead.assemble_eq (hcore : CoreRead data inode) (h : inode.Storable)
    (htimes : data.Reads inode.timeSlots) (fork : Fork) :
    assemble data inode.ino inode.extension fork = { inode with fork := fork } := by
  obtain ⟨hfront, hchanged⟩ := reads_append.1 htimes
  obtain ⟨haccessed, hmodified⟩ := reads_append.1 hfront
  rw [assemble, hcore.mode, hcore.version, hcore.format, hcore.uid, hcore.gid, hcore.linkCount,
    hcore.size, hcore.blockCount, hcore.extentSize, hcore.extentCount, hcore.attrExtentCount,
    hcore.forkOffset, hcore.attrFormat, hcore.flags, hcore.generation, h.format_eq, ← h.fileType_eq]
  congr 1
  · exact Timestamp.ofBytes_of_reads h.accessed_expressible haccessed
  · exact Timestamp.ofBytes_of_reads h.modified_expressible hmodified
  · exact Timestamp.ofBytes_of_reads h.changed_expressible hchanged

theorem readExtension_of_reads {added : CoreExtension} (h : data.Reads (extensionSlots added))
    (hlen : longCoreSize ≤ data.length) (huuid : added.uuid.length = 16)
    (hcreated : added.created.Expressible (asksLongTimes added.flags2)) :
    readExtension data added.ino = .ok added := by
  obtain ⟨hnumbers, htime⟩ := reads_append.1 h
  simp only [reads_cons] at hnumbers
  obtain ⟨hcrc, hchangeCount, hlsn, hflags2, hextentSize, hino,
    hdigits, _⟩ := hnumbers
  have hbytes : data.slice 0xA0 16 = added.uuid := slice_of_beAt_eq huuid hlen hdigits
  have htime := Timestamp.ofBytes_of_reads hcreated htime
  simp only [readExtension, inoOffset, hcrc, hchangeCount, hlsn, hflags2, hextentSize, hino, hbytes,
    htime, if_true]

theorem isLong_of_extension {added : CoreExtension} (h : inode.extension = some added) :
    inode.isLong = asksLongTimes added.flags2 := by
  rw [isLong, h, Option.any_some]

/-- The checks are passed, and what version 3 adds is read back. -/
theorem CoreRead.readHead_eq (hcore : CoreRead data inode) (h : inode.Storable)
    (hadded : data.Reads (inode.extension.toList.flatMap extensionSlots))
    (hlen : coreSize inode.version ≤ data.length) : readHead data inode.ino = .ok inode.extension := by
  rw [readHead_of_whole hcore.magic (by rwa [hcore.version]), readAdded, hcore.version]
  have hsome := h.extension_isSome
  cases hextension : inode.extension with
  | none =>
    rw [hextension] at hsome
    exact if_neg (of_decide_eq_false hsome.symm)
  | some added =>
    have hcreated := h.created_expressible added hextension
    rw [isLong_of_extension hextension] at hcreated
    rw [hextension] at hsome hadded
    rw [Option.toList_some, List.flatMap_singleton] at hadded
    have hversion := of_decide_eq_true hsome.symm
    rw [coreSize, if_pos hversion] at hlen
    rw [if_pos hversion, ← h.ino_eq added hextension,
      readExtension_of_reads hadded hlen (h.uuid_length added hextension) hcreated]
    rfl

/-- The bytes of the data fork: up to the attribute fork, if there is one. -/
def forkPart (inode : Inode) (more : Bytes) : Bytes :=
  if inode.forkOffset = 0 then more else more.take (8 * inode.forkOffset)

/-- Whatever stood in the buffer and stands behind the core, decoding gives back every field, and
fails only if the data fork does. -/
theorem ofBytes_encode (h : inode.Storable) {filling : Bytes}
    (hfilling : filling.length = coreSize inode.version) (more : Bytes) (hasType : Bool) :
    ofBytes (inode.encode filling ++ more) inode.ino hasType =
      (readFork (inode.forkPart more) inode.format inode.fileType inode.extentCount inode.size
        hasType).map fun fork => { inode with fork := fork } := by
  have hreads := h.reads_encode hfilling more
  obtain ⟨hall, hadded⟩ := reads_append.1 hreads
  obtain ⟨hnumbers, htimes⟩ := reads_append.1 hall
  have hcore := coreRead_of_reads hnumbers
  have hlen := h.length_encode hfilling
  rw [ofBytes_of_head_ok (hcore.readHead_eq h hadded (by rw [List.length_append]; omega))]
  have hwindow : windowOf (inode.encode filling ++ more) = inode.forkPart more := by
    rw [windowOf, hcore.version, hcore.forkOffset, forkWindow, List.drop_left' hlen, forkPart,
      Nat.mul_comm]
  rw [readWindow, hwindow, hcore.format, hcore.mode, hcore.extentCount, hcore.size, h.format_eq,
    ← h.fileType_eq]
  congr 1
  funext fork
  exact hcore.assemble_eq h htimes fork

/-- A character device, created one second before 1970 and with long timestamps. -/
def tapeDevice : Inode :=
  { ino := 131, version := 3, mode := 0x2180, fileType := .charDevice, format := .device,
    uid := 1000, gid := 100, linkCount := 1, size := 0, blockCount := 0, extentSize := 0,
    extentCount := 0, attrExtentCount := 0, forkOffset := 3, attrFormat := 2, flags := 0x10,
    generation := 0xDEADBEEF, accessed := ⟨1700000000, 1⟩, modified := ⟨-2147483648, 0⟩,
    changed := ⟨16299260425, 709551615⟩,
    extension := some
      { crc := 7, changeCount := 9, lsn := 0x100000002, flags2 := 8, cowExtentSize := 16,
        created := ⟨-1, 999999999⟩, ino := 131, uuid := List.replicate 16 0xAB },
    fork := .unhandled [] }

theorem tapeDevice_storable : tapeDevice.Storable where
  fits := by decide
  fileType_eq := rfl
  format_eq := rfl
  extension_isSome := rfl
  ino_eq := by rintro _ ⟨⟩; rfl
  uuid_length := by rintro _ ⟨⟩; rfl
  accessed_expressible := by decide
  modified_expressible := by decide
  changed_expressible := by decide
  created_expressible := by rintro _ ⟨⟩; decide

theorem tapeDevice_decoded :
    tapeDevice.Storable ∧ (List.replicate 176 (0xFF : UInt8)).length = coreSize tapeDevice.version ∧
      ofBytes (tapeDevice.encode (List.replicate 176 0xFF) ++ [0, 0, 9, 0x80, 1]) 131 true =
        .ok { tapeDevice with fork := .device ⟨9, 128⟩ } :=
  ⟨tapeDevice_storable, rfl, ofBytes_encode tapeDevice_storable rfl [0, 0, 9, 0x80, 1] true⟩

/-! ## Writing what was read -/

theorem reads_coreSlots (hmagic : data.be16 0 = Magic.inode) (ino : Nat)
    (extension : Option CoreExtension) (fork : Fork) :
    data.Reads (assemble data ino extension fork).coreSlots := by
  have hlink : data.beAt (assemble data ino extension fork).linkSlot.offset
      (assemble data ino extension fork).linkSlot.width =
        (assemble data ino extension fork).linkSlot.value := by
    simp only [linkSlot, assemble]
    split <;> rfl
  have hformat : data.beAt 0x05 1 = (assemble data ino extension fork).format.code :=
    (byteAt_eq_beAt data 0x05).symm.trans (ForkFormat.code_ofCode _).symm
  simp only [coreSlots, reads_cons]
  exact ⟨hmagic, rfl, (byteAt_eq_beAt data 0x04).symm, hformat, rfl, rfl, hlink, rfl, rfl, rfl, rfl,
    rfl, (byteAt_eq_beAt data 0x52).symm, (byteAt_eq_beAt data 0x53).symm, rfl, rfl, reads_nil⟩

theorem reads_timeSlots (data : Bytes) (ino : Nat) (extension : Option CoreExtension) (fork : Fork) :
    data.Reads (assemble data ino extension fork).timeSlots :=
  reads_append.2 ⟨reads_append.2 ⟨Timestamp.reads_slots data 0x20 _, Timestamp.reads_slots data 0x28 _⟩,
    Timestamp.reads_slots data 0x30 _⟩

/-- What version 3 adds, as it stands in the bytes of the inode `ino`. -/
structure StandsIn (added : CoreExtension) (data : Bytes) (ino : Nat) : Prop where
  reads : data.Reads (extensionSlots added)
  ino_eq : added.ino = ino
  uuid_length : added.uuid.length = 16
  created_expressible : added.created.Expressible (asksLongTimes added.flags2)

/-- What is read of version 3 stands in the bytes. -/
theorem standsIn_of_readExtension {added : CoreExtension} {ino : Nat}
    (hlen : longCoreSize ≤ data.length) (h : readExtension data ino = .ok added) :
    StandsIn added data ino := by
  by_cases hino : data.be64 inoOffset = ino
  · obtain rfl := Except.ok.inj ((if_pos hino).symm.trans h)
    refine ⟨reads_append.2 ⟨?_, Timestamp.reads_slots data 0x90 _⟩, hino, length_slice_of_le hlen,
      Timestamp.expressible_ofBytes data 0x90 _⟩
    simp only [reads_cons, reads_nil, and_true, true_and]
    exact ⟨rfl, rfl⟩
  · rw [readExtension_of_ne hino] at h
    cases h

/-- Behind the checks, something was added exactly from version 3 on. -/
theorem readAdded_ok {extension : Option CoreExtension} {ino : Nat}
    (hlen : coreSize (versionOf data) ≤ data.length) (h : readAdded data ino = .ok extension) :
    extension.isSome = decide (3 ≤ versionOf data) ∧
      ∀ added ∈ extension, StandsIn added data ino := by
  by_cases hversion : 3 ≤ versionOf data
  · rw [coreSize, if_pos hversion] at hlen
    rw [readAdded, if_pos hversion] at h
    cases hread : readExtension data ino with
    | error fault => rw [hread] at h; cases h
    | ok added =>
      rw [hread] at h
      obtain rfl := Except.ok.inj h
      refine ⟨(decide_eq_true hversion).symm, ?_⟩
      rintro _ ⟨⟩
      exact standsIn_of_readExtension hlen hread
  · obtain rfl := Except.ok.inj ((if_neg hversion).symm.trans h)
    refine ⟨(decide_eq_false hversion).symm, ?_⟩
    rintro _ ⟨⟩

theorem reads_assemble {extension : Option CoreExtension} {ino : Nat}
    (hmagic : data.be16 0 = Magic.inode) (hadded : ∀ added ∈ extension, StandsIn added data ino)
    (fork : Fork) : data.Reads (assemble data ino extension fork).slots := by
  refine reads_append.2 ⟨reads_append.2
    ⟨reads_coreSlots hmagic ino extension fork, reads_timeSlots data ino extension fork⟩, ?_⟩
  intro slot hmem
  obtain ⟨added, hextension, hslot⟩ := List.mem_flatMap.1 hmem
  exact (hadded added (Option.mem_toList.1 hextension)).reads slot hslot

theorem storable_assemble {extension : Option CoreExtension} {ino : Nat} {fork : Fork}
    (hreads : data.Reads (assemble data ino extension fork).slots)
    (hsome : extension.isSome = decide (3 ≤ versionOf data))
    (hadded : ∀ added ∈ extension, StandsIn added data ino) :
    (assemble data ino extension fork).Storable where
  fits := hreads.fits
  fileType_eq := rfl
  format_eq := congrArg ForkFormat.ofCode (ForkFormat.code_ofCode _)
  extension_isSome := hsome
  ino_eq := fun added hmem => (hadded added hmem).ino_eq
  uuid_length := fun added hmem => (hadded added hmem).uuid_length
  accessed_expressible := Timestamp.expressible_ofBytes data 0x20 _
  modified_expressible := Timestamp.expressible_ofBytes data 0x28 _
  changed_expressible := Timestamp.expressible_ofBytes data 0x30 _
  created_expressible := by
    intro added hmem
    rw [isLong_of_extension hmem]
    exact (hadded added hmem).created_expressible

/-- Every inode that is read can be stored, and writing it where it was read changes nothing. -/
theorem encode_of_ofBytes {ino : Nat} {hasType : Bool} (h : ofBytes data ino hasType = .ok inode) :
    inode.Storable ∧ inode.encode data = data := by
  rw [ofBytes_eq] at h
  obtain ⟨extension, hhead, hrest⟩ := Except.bind_eq_ok.1 h
  obtain ⟨fork, _, hassembled⟩ := Except.bind_eq_ok.1 hrest
  obtain rfl := Except.ok.inj hassembled
  obtain ⟨hmagic, hcore, hextension⟩ := readHead_eq_ok_iff.1 hhead
  obtain ⟨hsome, hadded⟩ := readAdded_ok hcore hextension
  have hreads := reads_assemble hmagic hadded fork
  have hstorable := storable_assemble hreads hsome hadded
  refine ⟨hstorable, hreads.fill_eq fun slot hmem => ?_⟩
  exact Nat.le_trans (hstorable.wellPlaced.2 slot hmem) hcore

end table

end Inode

end DiskScope.Xfs
