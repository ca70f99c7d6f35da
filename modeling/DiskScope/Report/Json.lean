/-
  DiskScope/Report/Json.lean --- values for machine-readable output, and their text.

  WHAT THIS FILE IS FOR.  Decoded structures are reported as JSON.  An object keeps
  its members in the order in which they were listed, so a report reads in the
  order of the structure it describes.  Numbers are integers of any size.

  Two spellings are offered: one line without blanks, and an indented one with a
  member or an element to a line and two blanks for each level.
-/
import DiskScope.Text.Layout

set_option autoImplicit false

namespace DiskScope.Report

open Text

/-- A JSON value with integer numbers. -/
inductive Json where
  | null
  | bool (value : Bool)
  | number (value : Int)
  | text (value : String)
  | list (elements : List Json)
  | object (members : List (String × Json))
  deriving Repr, Inhabited

namespace Json

/-- A natural number. -/
def nat (n : Nat) : Json := .number n

/-- A list of natural numbers. -/
def nats (ns : List Nat) : Json := .list (ns.map nat)

/-- A list of texts. -/
def texts (values : List String) : Json := .list (values.map text)

/-- A value, or null where there is none. -/
def option {α : Type} (encode : α → Json) : Option α → Json
  | none => null
  | some a => encode a

/-- Every element, encoded. -/
def listOf {α : Type} (encode : α → Json) (values : List α) : Json :=
  .list (values.map encode)

/-! ## Spelling -/

/-- The spelling of an integer. -/
def spellInt (n : Int) : String :=
  if n < 0 then "-" ++ decimal n.natAbs else decimal n.natAbs

/-- The spelling of a character within quotes. -/
def spellChar (c : Char) : String :=
  if c = '"' then "\\\""
  else if c = '\\' then "\\\\"
  else if c = '\n' then "\\n"
  else if c = '\r' then "\\r"
  else if c = '\t' then "\\t"
  else if c = '\x08' then "\\b"
  else if c = '\x0c' then "\\f"
  else if c.toNat < 0x20 then "\\u" ++ hexPadded 4 c.toNat
  else String.singleton c

/-- A text in quotes. -/
def spellText (value : String) : String :=
  "\"" ++ String.join (value.toList.map spellChar) ++ "\""

mutual

/-- The spelling on one line. -/
def compact : Json → String
  | null => "null"
  | bool value => if value then "true" else "false"
  | number value => spellInt value
  | text value => spellText value
  | list elements => "[" ++ joinWith "," (compactElements elements) ++ "]"
  | object members => "\x7b" ++ joinWith "," (compactMembers members) ++ "\x7d"

/-- The one-line spellings of the elements of a list. -/
def compactElements : List Json → List String
  | [] => []
  | element :: rest => compact element :: compactElements rest

/-- The one-line spellings of the members of an object. -/
def compactMembers : List (String × Json) → List String
  | [] => []
  | (key, value) :: rest => (spellText key ++ ":" ++ compact value) :: compactMembers rest

end

/-- The blanks in front of a line at `depth` levels. -/
def margin (depth : Nat) : String := String.ofList (List.replicate (2 * depth) ' ')

/-- Items on lines of their own between two brackets; nothing between them if there is no item. -/
def block (opening closing : String) (depth : Nat) (items : List String) : String :=
  if items.isEmpty then opening ++ closing
  else
    opening ++ "\n" ++ joinWith ",\n" (items.map (margin (depth + 1) ++ ·)) ++ "\n"
      ++ margin depth ++ closing

mutual

/-- The indented spelling of a value that starts at `depth` levels. -/
def prettyAt (depth : Nat) : Json → String
  | null => "null"
  | bool value => if value then "true" else "false"
  | number value => spellInt value
  | text value => spellText value
  | list elements => block "[" "]" depth (prettyElements (depth + 1) elements)
  | object members => block "\x7b" "\x7d" depth (prettyMembers (depth + 1) members)

/-- The indented spellings of the elements of a list. -/
def prettyElements (depth : Nat) : List Json → List String
  | [] => []
  | element :: rest => prettyAt depth element :: prettyElements depth rest

/-- The indented spellings of the members of an object. -/
def prettyMembers (depth : Nat) : List (String × Json) → List String
  | [] => []
  | (key, value) :: rest =>
    (spellText key ++ ": " ++ prettyAt depth value) :: prettyMembers depth rest

end

/-- The indented spelling. -/
def pretty (value : Json) : String := prettyAt 0 value

end Json

end DiskScope.Report
