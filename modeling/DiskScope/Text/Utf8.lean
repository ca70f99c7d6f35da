/-
  DiskScope/Text/Utf8.lean --- text from bytes that may not be UTF-8.

  WHAT THIS FILE IS FOR.  Names and link targets on a disk are raw bytes.  They
  are shown as UTF-8, and where they are not UTF-8 each maximal invalid prefix,
  that is a character broken off after as many good bytes as it had, or a byte
  that starts no character, is shown as one replacement character.

  HOW.  `step` reads one byte.  Between characters nothing is pending; inside a
  character a `Tail` says which range the next byte must lie in and how many
  more follow.  A byte outside the range ends the broken character and is read
  again as a first byte, so no byte is ever skipped.
-/
import DiskScope.Bytes

set_option autoImplicit false

namespace DiskScope.Text.Utf8

/-- Stands for bytes that are not UTF-8. -/
def replacement : Char := '\uFFFD'

/-- What an unfinished character has and what it still needs. -/
structure Tail where
  /-- The bits read so far. -/
  code : Nat
  /-- How many bytes follow the next one. -/
  owed : Nat
  /-- The least value the next byte may have. -/
  low : Nat
  /-- The greatest value the next byte may have. -/
  high : Nat
  deriving DecidableEq, Repr, Inhabited

/-- Reads `b` as the first byte of a character. -/
def lead (b : Nat) : List Char × Option Tail :=
  if b < 0x80 then ([Char.ofNat b], none)
  else if b < 0xC2 then ([replacement], none)
  else if b < 0xE0 then ([], some ⟨b - 0xC0, 0, 0x80, 0xBF⟩)
  else if b < 0xF0 then
    ([], some ⟨b - 0xE0, 1, if b = 0xE0 then 0xA0 else 0x80, if b = 0xED then 0x9F else 0xBF⟩)
  else if b < 0xF5 then
    ([], some ⟨b - 0xF0, 2, if b = 0xF0 then 0x90 else 0x80, if b = 0xF4 then 0x8F else 0xBF⟩)
  else ([replacement], none)

/-- Reads one byte: the characters it completes and what is then pending. -/
def step : Option Tail → Nat → List Char × Option Tail
  | none, b => lead b
  | some tail, b =>
    if tail.low ≤ b ∧ b ≤ tail.high then
      let code := tail.code * 64 + (b - 0x80)
      match tail.owed with
      | 0 => ([Char.ofNat code], none)
      | owed + 1 => ([], some ⟨code, owed, 0x80, 0xBF⟩)
    else
      (replacement :: (lead b).1, (lead b).2)

/-- The characters of `data` after what is pending. -/
def decodeFrom : Option Tail → Bytes → List Char
  | none, [] => []
  | some _, [] => [replacement]
  | pending, b :: rest => (step pending b.toNat).1 ++ decodeFrom (step pending b.toNat).2 rest

/-- The text of `data`, each maximal invalid prefix shown as one replacement character. -/
def decode (data : Bytes) : String :=
  String.ofList (decodeFrom none data)

/-- The bytes of a text. -/
def encode (text : String) : Bytes :=
  text.toUTF8.toList

end DiskScope.Text.Utf8
