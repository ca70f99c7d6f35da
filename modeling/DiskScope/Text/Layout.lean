/-
  DiskScope/Text/Layout.lean --- numerals, padding and lines.

  WHAT THIS FILE IS FOR.  Every table and dump of this library is built from a
  few shapes: a numeral in base 8, 10 or 16, perhaps with leading zeros, a cell
  padded to a column width, and lines that each end in a newline.  Widths count
  characters; a cell that is already wide enough is never cut.
-/
set_option autoImplicit false

namespace DiskScope.Text

/-! ## Padding -/

/-- `text` with `fill` put in front of it up to `width` characters. -/
def padLeftWith (fill : Char) (width : Nat) (text : String) : String :=
  String.ofList (List.replicate (width - text.length) fill) ++ text

/-- `text` flush right in a column of `width` characters. -/
def padLeft (width : Nat) (text : String) : String :=
  padLeftWith ' ' width text

/-- `text` flush left in a column of `width` characters. -/
def padRight (width : Nat) (text : String) : String :=
  text ++ String.ofList (List.replicate (width - text.length) ' ')

theorem length_padLeftWith (fill : Char) (width : Nat) (text : String) :
    (padLeftWith fill width text).length = max width text.length := by
  simp [padLeftWith]; omega

theorem length_padRight (width : Nat) (text : String) :
    (padRight width text).length = max width text.length := by
  simp [padRight]; omega

/-! ## Numerals -/

/-- The digits of `n` in `base`, lower-case beyond nine, at least one. -/
def numeral (base n : Nat) : String :=
  String.ofList (Nat.toDigits base n)

/-- Decimal digits. -/
def decimal (n : Nat) : String := numeral 10 n

/-- Hexadecimal digits without a mark. -/
def hexDigits (n : Nat) : String := numeral 16 n

/-- Hexadecimal digits, at least `width` of them, without a mark. -/
def hexPadded (width n : Nat) : String := padLeftWith '0' width (hexDigits n)

/-- A marked hexadecimal number such as `0x1f`. -/
def hex (n : Nat) : String := "0x" ++ hexDigits n

/-- A marked hexadecimal number with at least `width` digits, such as `0x001f`. -/
def hexWide (width n : Nat) : String := "0x" ++ hexPadded width n

/-- A marked hexadecimal number with at least `width` upper-case digits, such as `0x001F`. -/
def hexWideUpper (width n : Nat) : String := "0x" ++ (hexPadded width n).toUpper

/-- A marked octal number such as `0o755`. -/
def octal (n : Nat) : String := "0o" ++ numeral 8 n

/-- Decimal digits, at least `width` of them. -/
def decimalPadded (width n : Nat) : String := padLeftWith '0' width (decimal n)

/-! ## Lists and lines -/

/-- The texts with `separator` between neighbours. -/
def joinWith (separator : String) : List String → String
  | [] => ""
  | [text] => text
  | text :: rest => text ++ separator ++ joinWith separator rest

/-- The texts one after the other, each ended by a newline. -/
def lines (texts : List String) : String :=
  String.join (texts.map (· ++ "\n"))

/-- Numbers in brackets, such as `[1, 2]`. -/
def numberList (numbers : List Nat) : String :=
  "[" ++ joinWith ", " (numbers.map decimal) ++ "]"

end DiskScope.Text
