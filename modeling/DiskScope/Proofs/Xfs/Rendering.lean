/-
  DiskScope/Proofs/Xfs/Rendering.lean --- what any bytes are shown as.

  WHAT THIS FILE IS FOR.  Every structure can be shown of every buffer.  Either the buffer is
  decoded, or it is dumped behind the reason why it is not.  Most structures are tables and
  are never refused; a superblock and a tree block are refused exactly if they are too short
  for what they say they are; and an inode if its decoder refuses it.  `Refusal` lists the
  reasons, `Undecodable` says for which bytes there is one.

  TEXTS.  A dump begins with a letter with which nothing that is decoded begins, so the text
  alone tells whether the bytes were refused.

  INODES.  A block of a disk does not say which inode is meant, so the number is taken from the
  bytes themselves.  It is the right one: if the bytes are decoded as any inode of version 3,
  they are shown as that one.

  MAIN STATEMENTS.

      decode_eq_error_iff        decoding fails for the reasons on the list
      render_eq_undecoded_iff    which the text shows
      render_inode               an inode is shown alike by its number and by its block
      rendered                   all of it
-/
import DiskScope.Proofs.Xfs.InodeAddress
import DiskScope.Proofs.Xfs.RenderInside

set_option autoImplicit false

namespace DiskScope

open Text

/-! ## First letters -/

namespace Text

variable {letter : Char} {text : String}

/-- The text begins with this letter. -/
def Begins (letter : Char) (text : String) : Prop := text.toList.head? = some letter

instance : Decidable (Begins letter text) := inferInstanceAs (Decidable (_ = _))

theorem Begins.append (h : Begins letter text) (more : String) : Begins letter (text ++ more) := by
  rw [Begins, String.toList_append, List.head?_append, h]
  rfl

theorem Begins.lines (h : Begins letter text) (rest : List String) :
    Begins letter (lines (text :: rest)) := by
  rw [Text.lines, List.map_cons, String.join_cons]
  exact (h.append "\n").append _

theorem Begins.eq {other : Char} (h : Begins letter text) (h' : Begins other text) :
    letter = other :=
  Option.some.inj (h.symm.trans h')

end Text

theorem Field.begins_render {letter : Char} {title : String} (h : Begins letter title)
    (fields : List Field) (data : Bytes) : Begins letter (Field.render title fields data) :=
  (h.append ":").lines _

namespace Xfs

variable {data : Bytes} {sb : Option Superblock} {kind : Structure} {fault : Fault}

/-! ## Refusals -/

/-- What is refused exactly if it is cut: short of what all have, or, where there is more to it, of
that. -/
theorem eq_error_iff_of_cuts {α : Type} {run : Except Fault α} {cut laterCut : Fault}
    {len base long : Nat} {Longer : Prop} (hcut : len < base → run = .error cut)
    (hlater : base ≤ len → len < long → Longer → run = .error laterCut)
    (hwhole : base ≤ len → (Longer → long ≤ len) → ∃ value, run = .ok value) :
    run = .error fault ↔
      len < base ∧ fault = cut ∨ base ≤ len ∧ len < long ∧ Longer ∧ fault = laterCut := by
  constructor
  · intro h
    rcases Nat.lt_or_ge len base with hshort | hbase
    · rw [hcut hshort] at h
      exact .inl ⟨hshort, (Except.error.inj h).symm⟩
    by_cases hmissing : len < long ∧ Longer
    · rw [hlater hbase hmissing.1 hmissing.2] at h
      exact .inr ⟨hbase, hmissing.1, hmissing.2, (Except.error.inj h).symm⟩
    · obtain ⟨value, hvalue⟩ := hwhole hbase fun hlonger =>
        Nat.not_lt.1 fun hlt => hmissing ⟨hlt, hlonger⟩
      rw [hvalue] at h
      cases h
  · rintro (⟨hshort, rfl⟩ | ⟨hbase, hlt, hlonger, rfl⟩)
    · exact hcut hshort
    · exact hlater hbase hlt hlonger

namespace Superblock

theorem ofBytes_of_short (h : data.length < 0xD0) :
    ofBytes data = .error (.truncated "superblock" 0xD0 data.length) :=
  Inode.require_bind_of_lt h _ _

theorem ofBytes_of_short_v5 (hbase : 0xD0 ≤ data.length) (h : data.length < 0x108)
    (hversion : data.be16 0x64 % 16 = 5) :
    ofBytes data = .error (.truncated "v5 superblock" 0x108 data.length) := by
  have hbase : baseSize ≤ data.length := hbase
  have hversion : versionOf (data.be16 0x64) = 5 := hversion
  rw [ofBytes, Inode.require_bind_of_le hbase]
  simp only [if_pos hversion]
  exact Inode.require_bind_of_lt h _ _

theorem exists_ofBytes (hbase : 0xD0 ≤ data.length)
    (h : data.be16 0x64 % 16 = 5 → 0x108 ≤ data.length) : ∃ sb, ofBytes data = .ok sb := by
  have hbase : baseSize ≤ data.length := hbase
  rw [ofBytes, Inode.require_bind_of_le hbase]
  by_cases hversion : versionOf (data.be16 0x64) = 5
  · have hlong : v5Size ≤ data.length := h hversion
    simp only [if_pos hversion, Inode.require_bind_of_le hlong]
    exact ⟨_, rfl⟩
  · simp only [if_neg hversion]
    exact ⟨_, rfl⟩

theorem ofBytes_eq_error_iff :
    ofBytes data = .error fault ↔
      data.length < 0xD0 ∧ fault = .truncated "superblock" 0xD0 data.length ∨
      0xD0 ≤ data.length ∧ data.length < 0x108 ∧ data.be16 0x64 % 16 = 5 ∧
        fault = .truncated "v5 superblock" 0x108 data.length :=
  eq_error_iff_of_cuts ofBytes_of_short ofBytes_of_short_v5 exists_ofBytes

end Superblock

namespace TreeBlock

theorem ofBytes_of_short (h : data.length < 16) :
    ofBytes data = .error (.truncated "btree block" 16 data.length) :=
  Inode.require_bind_of_lt h _ _

theorem ofBytes_of_short_crc (hplain : 16 ≤ data.length) (h : data.length < 56)
    (hcrc : data.be32 0 ∈ crcMagics) :
    ofBytes data = .error (.truncated "btree block" 56 data.length) := by
  have hplain : plainHeaderSize ≤ data.length := hplain
  have hsize : (readHeader data).headerSize = 56 := (headerSize_eq _).trans (if_pos hcrc)
  rw [ofBytes, Inode.require_bind_of_le hplain]
  simp only [hsize]
  exact Inode.require_bind_of_lt h _ _

theorem exists_ofBytes (hplain : 16 ≤ data.length)
    (h : data.be32 0 ∈ crcMagics → 56 ≤ data.length) : ∃ block, ofBytes data = .ok block := by
  have hwhole : (readHeader data).headerSize ≤ data.length := by
    rw [headerSize_eq]
    split
    · rename_i hcrc
      exact h hcrc
    · exact hplain
  exact ⟨_, ofBytes_of_le hwhole⟩

theorem ofBytes_eq_error_iff :
    ofBytes data = .error fault ↔
      data.length < 16 ∧ fault = .truncated "btree block" 16 data.length ∨
      16 ≤ data.length ∧ data.length < 56 ∧ data.be32 0 ∈ crcMagics ∧
        fault = .truncated "btree block" 56 data.length :=
  eq_error_iff_of_cuts ofBytes_of_short ofBytes_of_short_crc exists_ofBytes

end TreeBlock

namespace Structure

/-- Why bytes cannot be decoded as a structure. -/
inductive Refusal (data : Bytes) (sb : Option Superblock) : Structure → Fault → Prop where
  | superblockCut (hlen : data.length < 0xD0) :
    Refusal data sb .superblock (.truncated "superblock" 0xD0 data.length)
  /-- The words of version 5 do not fit in. -/
  | versionCut (hbase : 0xD0 ≤ data.length) (hlen : data.length < 0x108)
    (hversion : data.be16 0x64 % 16 = 5) :
    Refusal data sb .superblock (.truncated "v5 superblock" 0x108 data.length)
  | treeCut {kind : Structure} (htree : kind.isTree = true) (hlen : data.length < 16) :
    Refusal data sb kind (.truncated "btree block" 16 data.length)
  /-- The checksums do not fit in.  The magic is that of the bytes, not of the structure. -/
  | checksumsCut {kind : Structure} (htree : kind.isTree = true) (hplain : 16 ≤ data.length)
    (hlen : data.length < 56) (hcrc : data.be32 0 ∈ crcMagics) :
    Refusal data sb kind (.truncated "btree block" 56 data.length)
  | inode {fault : Fault}
    (hdecode : Inode.ofBytes data (ownIno data) (sb.any Superblock.hasFileType) = .error fault) :
    Refusal data sb .inode fault

/-- The bytes cannot be decoded as the structure. -/
def Undecodable (data : Bytes) (sb : Option Superblock) : Structure → Prop
  | .superblock => data.length < 0xD0 ∨ data.length < 0x108 ∧ data.be16 0x64 % 16 = 5
  | .inode =>
    ∃ fault, Inode.ofBytes data (ownIno data) (sb.any Superblock.hasFileType) = .error fault
  | kind => kind.isTree = true ∧
      (data.length < 16 ∨ data.length < 56 ∧ data.be32 0 ∈ crcMagics)

theorem bind_pure_eq_error_iff {α β : Type} {run : Except Fault α} {f : α → β} :
    (run >>= fun a => pure (f a)) = .error fault ↔ run = .error fault := by
  cases run with
  | error other =>
    exact ⟨fun h => congrArg _ (Except.error.inj h), fun h => congrArg _ (Except.error.inj h)⟩
  | ok a => exact ⟨fun h => (nomatch h), fun h => (nomatch h)⟩

theorem decode_of_isTree (htree : kind.isTree = true) :
    kind.decode data sb = renderTree data (sb.any Superblock.hasSparseInodes) := by
  cases kind with
  | superblock | agf | agi | agfl | logRecord | inode | quota => cases htree
  | _ => rfl

theorem decode_tree_eq_error_iff (htree : kind.isTree = true) :
    kind.decode data sb = .error fault ↔ Refusal data sb kind fault := by
  rw [decode_of_isTree htree, renderTree, bind_pure_eq_error_iff, TreeBlock.ofBytes_eq_error_iff]
  constructor
  · rintro (⟨hlen, rfl⟩ | ⟨hplain, hlen, hcrc, rfl⟩)
    · exact .treeCut htree hlen
    · exact .checksumsCut htree hplain hlen hcrc
  · intro h
    cases h with
    | superblockCut | versionCut | inode => cases htree
    | treeCut _ hlen => exact .inl ⟨hlen, rfl⟩
    | checksumsCut _ hplain hlen hcrc => exact .inr ⟨hplain, hlen, hcrc, rfl⟩

/-- Decoding fails exactly for the reasons on the list. -/
theorem decode_eq_error_iff : kind.decode data sb = .error fault ↔ Refusal data sb kind fault := by
  cases kind with
  | superblock =>
    rw [decode, bind_pure_eq_error_iff, Superblock.ofBytes_eq_error_iff]
    constructor
    · rintro (⟨hlen, rfl⟩ | ⟨hbase, hlen, hversion, rfl⟩)
      · exact .superblockCut hlen
      · exact .versionCut hbase hlen hversion
    · intro h
      cases h with
      | superblockCut hlen => exact .inl ⟨hlen, rfl⟩
      | versionCut hbase hlen hversion => exact .inr ⟨hbase, hlen, hversion, rfl⟩
      | treeCut htree => cases htree
      | checksumsCut htree => cases htree
  | inode =>
    rw [decode, bind_pure_eq_error_iff]
    constructor
    · exact .inode
    · intro h
      cases h with
      | inode hdecode => exact hdecode
      | treeCut htree => cases htree
      | checksumsCut htree => cases htree
  | agf | agi | agfl | logRecord | quota =>
    constructor
    · intro h
      cases h
    · intro h
      cases h with
      | treeCut htree => cases htree
      | checksumsCut htree => cases htree
  | _ => exact decode_tree_eq_error_iff rfl

theorem undecodable_tree_iff (htree : kind.isTree = true) :
    Undecodable data sb kind ↔ data.length < 16 ∨ data.length < 56 ∧ data.be32 0 ∈ crcMagics := by
  cases kind with
  | superblock | agf | agi | agfl | logRecord | inode | quota => cases htree
  | _ => exact and_iff_right rfl

/-- There is a reason exactly for the bytes that cannot be decoded. -/
theorem exists_refusal_iff : (∃ fault, Refusal data sb kind fault) ↔ Undecodable data sb kind := by
  constructor
  · rintro ⟨fault, h⟩
    cases h with
    | superblockCut hlen => exact .inl hlen
    | versionCut _ hlen hversion => exact .inr ⟨hlen, hversion⟩
    | treeCut htree hlen => exact (undecodable_tree_iff htree).2 (.inl hlen)
    | checksumsCut htree _ hlen hcrc => exact (undecodable_tree_iff htree).2 (.inr ⟨hlen, hcrc⟩)
    | inode hdecode => exact ⟨_, hdecode⟩
  · intro h
    by_cases htree : kind.isTree = true
    · rcases Nat.lt_or_ge data.length 16 with hshort | hplain
      · exact ⟨_, .treeCut htree hshort⟩
      · rcases (undecodable_tree_iff htree).1 h with hshort | ⟨hlen, hcrc⟩
        · omega
        · exact ⟨_, .checksumsCut htree hplain hlen hcrc⟩
    · cases kind with
      | superblock =>
        rcases Nat.lt_or_ge data.length 0xD0 with hshort | hbase
        · exact ⟨_, .superblockCut hshort⟩
        · rcases h with hshort | ⟨hlen, hversion⟩
          · omega
          · exact ⟨_, .versionCut hbase hlen hversion⟩
      | inode =>
        obtain ⟨fault, hdecode⟩ := h
        exact ⟨fault, .inode hdecode⟩
      | _ => exact absurd h.1 htree

/-! ## Texts -/

/-- The text of bytes that are not decoded: why, and all of them. -/
def undecodedText (kind : Structure) (data : Bytes) (fault : Fault) : String :=
  lines ["cannot decode as " ++ kind.name ++ ": " ++ fault.message] ++ hexdump data 0

theorem render_of_error (h : kind.decode data sb = .error fault) :
    kind.render data sb = kind.undecodedText data fault := by
  rw [render, h]
  rfl

theorem render_of_ok {text : String} (h : kind.decode data sb = .ok text) :
    kind.render data sb = text := by
  rw [render, h]

theorem begins_undecodedText (kind : Structure) (data : Bytes) (fault : Fault) :
    Begins 'c' (kind.undecodedText data fault) := by
  have hphrase : Begins 'c' "cannot decode as " := by decide
  exact ((((hphrase.append _).append _).append _).lines []).append _

/-- Nothing that is decoded begins like that. -/
theorem begins_decode {text : String} (h : kind.decode data sb = .ok text) :
    ∃ letter, letter ≠ 'c' ∧ Begins letter text := by
  cases kind with
  | superblock =>
    obtain ⟨decoded, -, htext⟩ := Except.bind_eq_ok.1 h
    obtain rfl := Except.ok.inj htext
    have htitle : Begins 's' "superblock" := by decide
    exact ⟨'s', by decide, ((Field.begins_render htitle _ _).append _).append _⟩
  | inode =>
    obtain ⟨decoded, -, htext⟩ := Except.bind_eq_ok.1 h
    obtain rfl := Except.ok.inj htext
    have hphrase : Begins 'i' "inode " := by decide
    exact ⟨'i', by decide, (((((hphrase.append _).append _).append _).append _).lines _).append _⟩
  | agfl =>
    obtain rfl := Except.ok.inj h
    rw [renderFreeList]
    split
    · have htitle : Begins 'A' "AGFL" := by decide
      exact ⟨'A', by decide, (Field.begins_render htitle _ _).append _⟩
    · have hphrase : Begins 'f' "free list slots in use: " := by decide
      rw [String.empty_append]
      exact ⟨'f', by decide, (hphrase.append _).lines []⟩
  | agf | agi =>
    obtain rfl := Except.ok.inj h
    exact ⟨'A', by decide, Field.begins_render (by decide) _ _⟩
  | logRecord =>
    obtain rfl := Except.ok.inj h
    exact ⟨'l', by decide, Field.begins_render (by decide) _ _⟩
  | quota =>
    obtain rfl := Except.ok.inj h
    exact ⟨'d', by decide, Field.begins_render (by decide) _ _⟩
  | _ =>
    obtain ⟨block, -, htext⟩ := Except.bind_eq_ok.1 h
    obtain rfl := Except.ok.inj htext
    have htitle : Begins 'b' "btree block " := by decide
    exact ⟨'b', by decide, (Field.begins_render (htitle.append _) _ _).append _⟩

theorem render_eq_undecoded_iff :
    (∃ fault, kind.render data sb = kind.undecodedText data fault) ↔ Undecodable data sb kind := by
  rw [← exists_refusal_iff]
  constructor
  · rintro ⟨fault, htext⟩
    cases hdecode : kind.decode data sb with
    | error other => exact ⟨other, decode_eq_error_iff.1 hdecode⟩
    | ok text =>
      rw [render_of_ok hdecode] at htext
      obtain ⟨letter, hother, hbegins⟩ := begins_decode hdecode
      rw [htext] at hbegins
      exact absurd (hbegins.eq (begins_undecodedText kind data fault)) hother
  · rintro ⟨fault, hrefusal⟩
    exact ⟨fault, render_of_error (decode_eq_error_iff.2 hrefusal)⟩

/-! ## Inodes by their own number -/

/-- An inode of version 3 that holds its core has a number of its own. -/
theorem ownIno_of_whole (hcore : Inode.coreEnd data ≤ data.length) (hversion : 3 ≤ data.byteAt 4) :
    ownIno data = data.be64 0x98 := by
  have hlong : Inode.inoOffset + 8 ≤ data.length := by
    rw [Inode.coreEnd, if_pos hversion] at hcore
    exact Nat.le_trans (by decide) hcore
  exact if_pos ⟨hlong, hversion⟩

/-- The fault is about the bytes alone: there are too few, or they do not begin as they should. -/
inductive AboutBytes : Fault → Prop where
  | tooFew (part : String) (needed actual : Nat) : AboutBytes (.truncated part needed actual)
  | foreign (part location : String) (expected actual : Nat) :
    AboutBytes (.badMagic part location expected actual)

/-- Bytes that are read by their own number are refused for what they are, not for which. -/
theorem aboutBytes_of_ownIno {hasType : Bool}
    (h : Inode.ofBytes data (ownIno data) hasType = .error fault) : AboutBytes fault := by
  have hverdict := Inode.verdict_ofBytes data (ownIno data) hasType
  rw [h] at hverdict
  cases hverdict with
  | short hlen => exact .tooFew _ _ _
  | foreign hlen hletters => exact .foreign _ _ _ _
  | cut hlen hletters hcore => exact .tooFew _ _ _
  | stranger hletters hcore hversion hother =>
    exact absurd (ownIno_of_whole hcore hversion).symm hother
  | spoilt hadmitted hfork =>
    obtain ⟨part, needed, rfl⟩ := hfork.truncated
    exact .tooFew part needed _

/-- No reason on the list is about a name or about a number. -/
theorem Refusal.aboutBytes (h : Refusal data sb kind fault) : AboutBytes fault := by
  cases h with
  | superblockCut | versionCut | treeCut | checksumsCut => exact .tooFew _ _ _
  | inode hdecode => exact aboutBytes_of_ownIno hdecode

/-- Bytes that are decoded as the inode of some number are so as that of their own. -/
theorem ownIno_of_decoded {ino : Nat} {hasType : Bool} {decoded : Inode}
    (h : Inode.ofBytes data ino hasType = .ok decoded) (hversion : 3 ≤ data.byteAt 4) :
    ownIno data = ino := by
  have hverdict := Inode.verdict_ofBytes data ino hasType
  rw [h] at hverdict
  cases hverdict with
  | decoded hadmitted =>
    rw [ownIno_of_whole hadmitted.core_le hversion, hadmitted.ino_eq hversion]

/-- A block that holds an inode is shown as the inode is by its number. -/
theorem render_inode {ino : Nat} {decoded : Inode} (hversion : 3 ≤ data.byteAt 4)
    (h : Inode.ofBytes data ino (sb.any Superblock.hasFileType) = .ok decoded) :
    inode.render data sb = decoded.render := by
  refine render_of_ok ?_
  rw [decode, ownIno_of_decoded h hversion, h]
  rfl

/-! ## All of it -/

/-- What any bytes are shown as. -/
structure Rendered (data : Bytes) (sb : Option Superblock) (kind : Structure) : Prop where
  /-- There is a text, and no byte outside is read for it. -/
  inside : Guarded.render kind data sb = pure (kind.render data sb)
  /-- Decoding fails exactly for the reasons on the list. -/
  refused_iff : ∀ fault, kind.decode data sb = .error fault ↔ Refusal data sb kind fault
  /-- Then the text is the reason and all the bytes. -/
  undecoded : ∀ fault, Refusal data sb kind fault →
    kind.render data sb = kind.undecodedText data fault
  /-- And it is so only of bytes that cannot be decoded. -/
  undecoded_iff :
    (∃ fault, kind.render data sb = kind.undecodedText data fault) ↔ Undecodable data sb kind
  /-- A name that nothing has is never the reason. -/
  known : ∀ name, kind.decode data sb ≠ .error (.unknownStructure name)
  /-- Nor is a number that is another one. -/
  own : ∀ expected actual, kind.decode data sb ≠ .error (.inoMismatch expected actual)

/-- All bytes are shown as all structures, and an inode is shown alike by its number and by its
block. -/
theorem rendered (data : Bytes) (sb : Option Superblock) :
    (∀ kind, Rendered data sb kind) ∧
    ∀ ino hasType decoded, 3 ≤ data.byteAt 4 → sb.any Superblock.hasFileType = hasType →
      Inode.ofBytes data ino hasType = .ok decoded → inode.render data sb = decoded.render := by
  constructor
  · intro kind
    refine
      { inside := Guarded.render_eq kind sb
        refused_iff := fun fault => decode_eq_error_iff
        undecoded := fun fault h => render_of_error (decode_eq_error_iff.2 h)
        undecoded_iff := render_eq_undecoded_iff
        known := fun name h => ?_
        own := fun expected actual h => ?_ }
    · cases (decode_eq_error_iff.1 h).aboutBytes
    · cases (decode_eq_error_iff.1 h).aboutBytes
  · intro ino hasType decoded hversion htype hdecode
    subst htype
    exact render_inode hversion hdecode

/-- A character device of version 3, which has the number 131. -/
def ownedDevice : Bytes :=
  Inode.letters ++ [0x21, 0x80, 3, 0] ++ List.replicate 146 0 ++ Bytes.ofNatBE 8 131 ++
    List.replicate 16 0 ++ [0, 0, 1, 3]

/-- It is shown alike in both ways, and dumped where its last byte is cut off. -/
theorem ownedDevice_rendered :
    ∃ decoded, Inode.ofBytes ownedDevice 131 false = .ok decoded ∧
      inode.render ownedDevice none = decoded.render ∧
      Rendered ownedDevice none inode ∧
      inode.render (ownedDevice.take 179) none =
        inode.undecodedText (ownedDevice.take 179) (.truncated "device fork" 4 3) := by
  obtain ⟨hkinds, hinode⟩ := rendered ownedDevice none
  have hdecode : Inode.ofBytes ownedDevice 131 false = .ok (Inode.assemble ownedDevice 131
      (Inode.readExtension ownedDevice 131).toOption (.device ⟨1, 3⟩)) := by decide +kernel
  have hcut : Inode.ofBytes (ownedDevice.take 179) (ownIno (ownedDevice.take 179)) false =
      .error (.truncated "device fork" 4 3) := by decide +kernel
  exact ⟨_, hdecode, hinode 131 false _ (by decide) rfl hdecode, hkinds inode,
    ((rendered (ownedDevice.take 179) none).1 inode).undecoded _ (.inode hcut)⟩

end Structure

end Xfs

end DiskScope
