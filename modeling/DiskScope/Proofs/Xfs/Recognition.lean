/-
  DiskScope/Proofs/Xfs/Recognition.lean --- a magic names one structure.

  WHAT THIS FILE IS FOR.  Structures are recognised by trying their magics in turn, and some
  magics have two bytes where others have four.  Here it is shown that the order makes no
  difference: no two magics of the table can begin the same data, so that data with the
  magic of a structure is always recognised as that structure.

  MAIN STATEMENTS.

      eq_of_leads              data begins with the magic of one structure at most
      identify_eq_some_iff     and is recognised as that one
      identify_of_be32         a word of four bytes that some structure begins with names it
-/
import DiskScope.Xfs.Structure

set_option autoImplicit false

namespace DiskScope

/-- The first word of data, in terms of its first four bytes. -/
theorem Bytes.be32_quotient {data : Bytes} (h : 4 ≤ data.length) :
    data.be32 0 / 65536 = data.be16 0 := by
  obtain ⟨a, b, c, d, rest, rfl⟩ : ∃ a b c d rest, data = a :: b :: c :: d :: rest := by
    match data, h with
    | a :: b :: c :: d :: rest, _ => exact ⟨a, b, c, d, rest, rfl⟩
  have hc := c.toNat_lt
  have hd := d.toNat_lt
  simp only [be32, be16, beAt, slice, List.drop_zero, List.take_succ_cons, List.take_zero, toNatBE,
    List.reverse_cons, List.reverse_nil, List.nil_append, List.cons_append, toNatLE]
  omega

namespace Xfs

namespace LeadingMagic

variable {data : Bytes}

/-- Some data begins with both magics: they are the same, or one is the start of the other. -/
def Overlaps : LeadingMagic → LeadingMagic → Prop
  | four value, four other => value = other
  | four value, two other => value / 65536 = other
  | two value, four other => other / 65536 = value
  | two value, two other => value = other

instance : (magic other : LeadingMagic) → Decidable (magic.Overlaps other)
  | four value, four other => inferInstanceAs (Decidable (value = other))
  | four value, two other => inferInstanceAs (Decidable (value / 65536 = other))
  | two value, four other => inferInstanceAs (Decidable (other / 65536 = value))
  | two value, two other => inferInstanceAs (Decidable (value = other))

theorem leads_iff {magic : LeadingMagic} :
    magic.leads data = true ↔ magic.size ≤ data.length ∧ data.beAt 0 magic.size = magic.value := by
  have hlen : min magic.size data.length = magic.size ↔ magic.size ≤ data.length := by omega
  simp [leads, Bytes.beAt, Bytes.slice, hlen]

theorem overlaps_of_leads {magic other : LeadingMagic} (h : magic.leads data = true)
    (hother : other.leads data = true) : magic.Overlaps other := by
  obtain ⟨hlen, hword⟩ := leads_iff.1 h
  obtain ⟨hlen', hword'⟩ := leads_iff.1 hother
  cases magic with
  | four value =>
    cases other with
    | four value' => exact hword.symm.trans hword'
    | two value' =>
      obtain rfl : data.be32 0 = value := hword
      exact (Bytes.be32_quotient hlen).trans hword'
  | two value =>
    cases other with
    | four value' =>
      obtain rfl : data.be32 0 = value' := hword'
      exact (Bytes.be32_quotient hlen').trans hword
    | two value' => exact hword.symm.trans hword'

end LeadingMagic

namespace Structure

variable {data : Bytes} {kind other : Structure}

theorem mem_all (kind : Structure) : kind ∈ all := by
  cases kind <;> decide

/-- No magic of the table is another one, or the start of another one. -/
theorem eq_of_overlaps : ∀ kind ∈ all, ∀ other ∈ all, kind.magic.Overlaps other.magic →
    kind = other := by
  decide

theorem eq_of_leads (h : kind.magic.leads data = true) (hother : other.magic.leads data = true) :
    kind = other :=
  eq_of_overlaps kind kind.mem_all other other.mem_all (LeadingMagic.overlaps_of_leads h hother)

/-- Whichever order the structures are tried in, the one found is the one whose magic the data begins
with. -/
theorem find?_eq_some_iff {table : List Structure} (htable : ∀ kind, kind ∈ table) :
    (table.find? fun kind => kind.magic.leads data) = some kind ↔
      kind.magic.leads data = true := by
  constructor
  · intro h
    exact List.find?_some (p := fun kind : Structure => kind.magic.leads data) h
  · intro h
    cases hfound : table.find? fun kind => kind.magic.leads data with
    | none => exact absurd h (List.find?_eq_none.1 hfound kind (htable kind))
    | some other =>
      have hother := List.find?_some (p := fun kind : Structure => kind.magic.leads data) hfound
      rw [eq_of_leads hother h]

theorem identify_eq_some_iff : identify data = some kind ↔ kind.magic.leads data = true :=
  find?_eq_some_iff mem_all

/-- A word of four bytes that some structure begins with names that structure. -/
theorem identify_of_be32 (hlen : 4 ≤ data.length) (hmagic : kind.magic = .four (data.be32 0)) :
    identify data = some kind := by
  rw [identify_eq_some_iff, hmagic]
  exact LeadingMagic.leads_iff.2 ⟨hlen, rfl⟩

end Structure

end Xfs

end DiskScope
