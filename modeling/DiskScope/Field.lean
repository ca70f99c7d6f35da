/-
  DiskScope/Field.lean --- tables of fixed fields and how they are shown.

  WHAT THIS FILE IS FOR.  A fixed on-disk structure is a table of fields: a name, an
  offset and an encoding.  Showing a structure is walking its table over the raw
  bytes; a field that runs past the end is shown as truncated.

  All integers are big-endian.
-/
import DiskScope.Text.Dump
import DiskScope.Text.Utf8

set_option autoImplicit false

namespace DiskScope

open Text

/-- How a field is stored and shown. -/
inductive Encoding where
  /-- An unsigned integer of `width` bytes, in decimal. -/
  | number (width : Nat)
  /-- An unsigned integer of `width` bytes, in hexadecimal with two digits for each byte. -/
  | word (width : Nat)
  /-- Sixteen bytes that identify something. -/
  | uuid
  /-- `width` bytes of text, ended early by a zero byte. -/
  | text (width : Nat)
  deriving DecidableEq, Repr, Inhabited

/-- The number of bytes that an encoding takes. -/
def Encoding.width : Encoding → Nat
  | number width => width
  | word width => width
  | uuid => 16
  | text width => width

/-- The text of a value stored in the bytes `raw`. -/
def Encoding.display (encoding : Encoding) (raw : Bytes) : String :=
  match encoding with
  | number _ => decimal raw.toNatBE
  | word width => hexWide (2 * width) raw.toNatBE
  | uuid => Text.uuid raw
  | text _ => "\"" ++ Utf8.decode raw.untilZero ++ "\""

/-- One field of a structure. -/
structure Field where
  name : String
  offset : Nat
  encoding : Encoding
  deriving DecidableEq, Repr, Inhabited

namespace Field

/-- The text of a field of the structure `data`, if all of it is there. -/
def format? (field : Field) (data : Bytes) : Option String :=
  if field.offset + field.encoding.width ≤ data.length then
    some (field.encoding.display (data.slice field.offset field.encoding.width))
  else none

/-- The line of a field in a table whose names take `column` characters. -/
def line (column : Nat) (data : Bytes) (field : Field) : String :=
  "  " ++ padRight column field.name ++ " = " ++ (field.format? data).getD "<truncated>"

/-- The column that holds every name of a table. -/
def column (fields : List Field) : Nat :=
  (fields.map (·.name.utf8ByteSize)).foldl max 0

/-- The structure `data` as a titled table. -/
def render (title : String) (fields : List Field) (data : Bytes) : String :=
  lines ((title ++ ":") :: fields.map (line (column fields) data))

end Field

end DiskScope
