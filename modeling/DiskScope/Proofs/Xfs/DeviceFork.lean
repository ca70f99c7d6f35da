/-
  DiskScope/Proofs/Xfs/DeviceFork.lean --- device numbers, and the data forks that hold them.

  WHAT THIS FILE IS FOR.  A device number has 32 bits.  The twelve bits of the major number
  stand in the middle of the twenty bits of the minor number, which are therefore taken from
  two places.  Here it is shown that the two parts and the number are the same thing: every
  number has parts with room in their bits, and every such pair is the parts of one number.

  THE FORK.  The data fork of a device inode begins with its number, most significant byte
  first.  So the parts that are decoded and the four bytes determine each other.

  MAIN STATEMENTS.

      ofNumber_number              parts with room are those of the number made of them
      ofNumber_eq_masks            taking a number apart, by shifts and masks
      IsDevice.exists_device       what the fork of a device inode begins with
      device_numbers_exact         all of it
-/
import DiskScope.Proofs.Bytes.Records
import DiskScope.Proofs.Xfs.InodeVerdict
import Mathlib.Algebra.GroupWithZero.Nat

set_option autoImplicit false

namespace DiskScope.Unix.Device

/-! ## Numbers and their parts -/

/-- Both parts have room in their bits. -/
structure InRange (device : Device) : Prop where
  major_lt : device.major < 2 ^ 12
  minor_lt : device.minor < 2 ^ 20

instance (device : Device) : Decidable device.InRange :=
  decidable_of_iff (device.major < 2 ^ 12 ∧ device.minor < 2 ^ 20)
    ⟨fun h => ⟨h.1, h.2⟩, fun h => ⟨h.1, h.2⟩⟩

variable {device : Device} {n : Nat}

theorem inRange_ofNumber (n : Nat) : (ofNumber n).InRange where
  major_lt := Nat.mod_lt _ (by decide)
  minor_lt := by
    simp only [ofNumber]
    omega

theorem number_lt (h : device.InRange) : device.number < 2 ^ 32 := by
  have hmajor := h.major_lt
  have hminor := h.minor_lt
  unfold number
  omega

theorem ofNumber_number (h : device.InRange) : ofNumber device.number = device := by
  obtain ⟨major, minor⟩ := device
  have hmajor : major < 2 ^ 12 := h.major_lt
  have hminor : minor < 2 ^ 20 := h.minor_lt
  simp only [ofNumber, number, Device.mk.injEq]
  omega

/-! ## Shifts and masks -/

/-- A mask of ones with zeros below cuts out a part and leaves it where it is. -/
theorem and_shifted_ones (value width shift : Nat) :
    value &&& (2 ^ width - 1) <<< shift = value / 2 ^ shift % 2 ^ width * 2 ^ shift := by
  refine Nat.eq_of_testBit_eq fun i => ?_
  simp only [Nat.testBit_and, Nat.testBit_shiftLeft, Nat.testBit_two_pow_sub_one,
    Nat.testBit_mul_two_pow, Nat.testBit_mod_two_pow, Nat.testBit_div_two_pow]
  by_cases hi : shift ≤ i
  · rw [Nat.sub_add_cancel hi, decide_eq_true hi, Bool.true_and, Bool.true_and, Bool.and_comm]
  · rw [decide_eq_false hi, Bool.false_and, Bool.and_false, Bool.false_and]

theorem ofNumber_eq_masks (n : Nat) :
    ofNumber n =
      { major := (n >>> 8) &&& 0xFFF
        minor := (n &&& 0xFF) ||| ((n >>> 12) &&& 0xFFF00) } := by
  have hmajor : (n >>> 8) &&& 0xFFF = n / 2 ^ 8 % 2 ^ 12 := by
    rw [Nat.shiftRight_eq_div_pow]
    exact Nat.and_two_pow_sub_one_eq_mod _ 12
  have hlow : n &&& 0xFF = n % 2 ^ 8 := Nat.and_two_pow_sub_one_eq_mod n 8
  have hhigh : (n >>> 12) &&& 0xFFF00 = n / 2 ^ 20 % 2 ^ 12 * 2 ^ 8 := by
    have hmask : 0xFFF00 = (2 ^ 12 - 1) <<< 8 := by decide
    rw [hmask, and_shifted_ones, Nat.shiftRight_eq_div_pow, Nat.div_div_eq_div_mul, ← Nat.pow_add]
  -- The two pieces of the minor number have no bit in common, so joining them is adding them.
  have hjoin : n % 2 ^ 8 + n / 2 ^ 20 % 2 ^ 12 * 2 ^ 8 =
      n % 2 ^ 8 ||| n / 2 ^ 20 % 2 ^ 12 * 2 ^ 8 := by
    rw [Nat.add_comm, Nat.mul_comm, Nat.or_comm]
    exact Nat.two_pow_add_eq_or_of_lt (Nat.mod_lt _ (by decide)) _
  rw [hmajor, hlow, hhigh, ← hjoin]
  rfl

end DiskScope.Unix.Device

namespace DiskScope.Xfs.Inode

open Unix

/-! ## The fork of a device -/

/-- The bytes decode to the inode of a character or block device in the format for devices. -/
structure IsDevice (data : Bytes) (inode : Inode) : Prop where
  decoded : ∃ ino hasType, ofBytes data ino hasType = .ok inode
  format_eq : inode.format = .device
  fileType_mem : inode.fileType = .charDevice ∨ inode.fileType = .blockDevice

variable {data other : Bytes} {inode otherInode : Inode}

theorem exists_isDevice {ino : Nat} {hasType : Bool} {fileType : FileType}
    (hparts : (ofBytes data ino hasType).toOption.map
      (fun inode => (inode.format, inode.fileType)) = some (.device, fileType))
    (hmeant : fileType = .charDevice ∨ fileType = .blockDevice) :
    ∃ inode, IsDevice data inode := by
  obtain ⟨inode, hdecoded, hfields⟩ := Except.exists_of_toOption_map hparts
  obtain ⟨hformat, rfl⟩ := Prod.mk.inj hfields
  exact ⟨inode, ⟨ino, hasType, hdecoded⟩, hformat, hmeant⟩

/-- The data fork is long enough for the number, and is decoded to its parts. -/
theorem IsDevice.fork_eq (h : IsDevice data inode) :
    4 ≤ (forkBytes data).length ∧
      inode.fork = .device (Device.ofNumber ((forkBytes data).be32 0)) := by
  obtain ⟨ino, hasType, hdecoded⟩ := h.decoded
  have hmeant : inode.fileType ∈ meantTypes .device := by
    simpa [meantTypes] using h.fileType_mem
  have hverdict := verdict_ofBytes data ino hasType
  rw [hdecoded] at hverdict
  cases hverdict with
  | decoded _ hfork _ _ htype hformat =>
    rw [← htype, ← hformat, h.format_eq] at hfork
    generalize inode.fork = fork at hfork
    cases hfork with
    | device _ hlen => exact ⟨hlen, rfl⟩
    | unhandled hmeaningless => exact absurd hmeant hmeaningless

/-- The fork begins with the number whose parts are decoded. -/
theorem IsDevice.exists_device (h : IsDevice data inode) :
    ∃ device : Device, device.InRange ∧ inode.fork = .device device ∧
      (forkBytes data).take 4 = Bytes.ofNatBE 4 device.number := by
  obtain ⟨hlen, hfork⟩ := h.fork_eq
  refine ⟨_, Device.inRange_ofNumber _, hfork, ?_⟩
  have hword : (forkBytes data).be32 0 < 0x100000000 := Bytes.beAt_lt _ 0 4
  rw [Device.number_ofNumber hword, Bytes.ofNatBE_beAt hlen]
  rfl

/-- The parts that are decoded and the first four bytes of the fork determine each other. -/
theorem IsDevice.fork_eq_iff (h : IsDevice data inode) (hother : IsDevice other otherInode) :
    inode.fork = otherInode.fork ↔ (forkBytes data).take 4 = (forkBytes other).take 4 := by
  obtain ⟨device, hrange, hfork, hbytes⟩ := h.exists_device
  obtain ⟨otherDevice, hotherRange, hotherFork, hotherBytes⟩ := hother.exists_device
  rw [hfork, hotherFork, hbytes, hotherBytes, Fork.device.injEq]
  refine ⟨fun hsame => hsame ▸ rfl, fun hsame => ?_⟩
  have hnumber := congrArg Bytes.toNatBE hsame
  rw [Bytes.toNatBE_ofNatBE (Device.number_lt hrange),
    Bytes.toNatBE_ofNatBE (Device.number_lt hotherRange)] at hnumber
  rw [← Device.ofNumber_number hrange, hnumber, Device.ofNumber_number hotherRange]

/-! ## All of it -/

/-- Numbers of 32 bits and pairs of parts in range are the same thing, the parts being cut out by
shifts and masks; the fork of a device inode begins with the number of the parts that are decoded
from it; and two device inodes have the same parts if and only if their forks begin with the same
four bytes. -/
theorem device_numbers_exact :
    (∀ n < 2 ^ 32,
      let parts := Device.ofNumber n
      parts.major < 2 ^ 12 ∧ parts.minor < 2 ^ 20 ∧
        n = parts.minor % 2 ^ 8 + parts.major * 2 ^ 8 + parts.minor / 2 ^ 8 * 2 ^ 20 ∧
        parts.major = (n >>> 8) &&& 0xFFF ∧
        parts.minor = (n &&& 0xFF) ||| ((n >>> 12) &&& 0xFFF00)) ∧
    (∀ major < 2 ^ 12, ∀ minor < 2 ^ 20,
      let n := minor % 2 ^ 8 + major * 2 ^ 8 + minor / 2 ^ 8 * 2 ^ 20
      n < 2 ^ 32 ∧ Device.ofNumber n = ⟨major, minor⟩) ∧
    (∀ data inode, IsDevice data inode → ∃ device : Device, device.InRange ∧
      inode.fork = .device device ∧ (forkBytes data).take 4 = Bytes.ofNatBE 4 device.number) ∧
    ∀ data inode other otherInode, IsDevice data inode → IsDevice other otherInode →
      (inode.fork = otherInode.fork ↔ (forkBytes data).take 4 = (forkBytes other).take 4) := by
  refine ⟨fun n hn => ?_, fun major hmajor minor hminor => ?_,
    fun data inode h => h.exists_device, fun data inode other otherInode h hother =>
      h.fork_eq_iff hother⟩
  · have hrange := Device.inRange_ofNumber n
    have hmasks := Device.ofNumber_eq_masks n
    exact ⟨hrange.major_lt, hrange.minor_lt, (Device.number_ofNumber hn).symm,
      congrArg Device.major hmasks, congrArg Device.minor hmasks⟩
  · have hrange : Device.InRange ⟨major, minor⟩ := ⟨hmajor, hminor⟩
    exact ⟨Device.number_lt hrange, Device.ofNumber_number hrange⟩

/-- A number with bits in all three places. -/
def wideNumber : Bytes := [0xFE, 0xDA, 0xBC, 0x12]

/-- A block device of version 2 with that number. -/
def wideBlockDevice : Bytes :=
  letters ++ [0x61, 0xB0, 2, 0] ++ List.replicate 94 0 ++ wideNumber

/-- A character device of version 3 with that number and more behind it. -/
def wideCharDevice : Bytes :=
  letters ++ [0x21, 0x80, 3, 0] ++ List.replicate 146 0 ++ Bytes.ofNatBE 8 131 ++
    List.replicate 16 0 ++ wideNumber ++ [0xFF]

/-- The minor number is put together from both ends, and both devices have the same. -/
theorem wideNumber_exact :
    Device.InRange ⟨0xABC, 0xFED12⟩ ∧ Device.ofNumber 0xFEDABC12 = ⟨0xABC, 0xFED12⟩ ∧
    ∃ blockDevice charDevice, IsDevice wideBlockDevice blockDevice ∧
      IsDevice wideCharDevice charDevice ∧
      (∃ device : Device, device.InRange ∧ blockDevice.fork = .device device ∧
        (forkBytes wideBlockDevice).take 4 = Bytes.ofNatBE 4 device.number) ∧
      blockDevice.fork = .device ⟨0xABC, 0xFED12⟩ ∧ charDevice.fork = blockDevice.fork := by
  have hrange : Device.InRange ⟨0xABC, 0xFED12⟩ := by decide
  obtain ⟨blockDevice, hblock⟩ : ∃ inode, IsDevice wideBlockDevice inode :=
    exists_isDevice (show (ofBytes _ 5 true).toOption.map _ = _ by decide +kernel) (.inr rfl)
  obtain ⟨charDevice, hchar⟩ : ∃ inode, IsDevice wideCharDevice inode :=
    exists_isDevice (show (ofBytes _ 131 true).toOption.map _ = _ by decide +kernel) (.inl rfl)
  have hsameBytes : (forkBytes wideCharDevice).take 4 = (forkBytes wideBlockDevice).take 4 := by
    decide +kernel
  obtain ⟨-, hcomposed, hfork, hsame⟩ := device_numbers_exact
  exact ⟨hrange, (hcomposed _ hrange.major_lt _ hrange.minor_lt).2, blockDevice, charDevice,
    hblock, hchar, hfork _ _ hblock, hblock.fork_eq.2.trans (by decide +kernel),
    (hsame _ _ _ _ hchar hblock).2 hsameBytes⟩

end DiskScope.Xfs.Inode
