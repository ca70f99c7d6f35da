/-
  DiskScope/Text/Calendar.lean --- seconds since 1970 as a date and a time of day.

  WHAT THIS FILE IS FOR.  Inode timestamps count seconds from the start of 1970,
  before it as negative numbers.  They are shown in the proleptic Gregorian
  calendar at offset zero, as `YYYY-MM-DD HH:MM:SS`.  Years from 0 to 9999 have four
  digits, all others a sign and at least four.

  HOW.  The calendar repeats every 400 years, which are 146097 days.  A day is
  split into its 400-year cycle and its day within one; counting years from the
  first of March puts the leap day last, so the year, the month and the day
  within a cycle follow by division (`dateOfDay`).

  Only the years from -262143 to 262142 have a calendar date; seconds outside
  them are shown as such.
-/
import DiskScope.Text.Layout

set_option autoImplicit false

namespace DiskScope.Text.Calendar

/-- A date of the proleptic Gregorian calendar. -/
structure Date where
  year : Int
  /-- From 1 to 12. -/
  month : Nat
  /-- From 1 to 31. -/
  day : Nat
  deriving DecidableEq, Repr, Inhabited

/-- The number of days in 400 years. -/
def daysPerCycle : Nat := 146097

/-- Days from the first of March of year 0 to the first day of 1970. -/
def epochDay : Int := 719468

/-- The date `days` after the first day of 1970. -/
def dateOfDay (days : Int) : Date :=
  let fromMarch := days + epochDay
  let cycle := fromMarch / daysPerCycle
  let dayOfCycle := (fromMarch % daysPerCycle).toNat
  let yearOfCycle :=
    (dayOfCycle - dayOfCycle / 1460 + dayOfCycle / 36524 - dayOfCycle / 146096) / 365
  let dayOfYear := dayOfCycle - (365 * yearOfCycle + yearOfCycle / 4 - yearOfCycle / 100)
  let monthFromMarch := (5 * dayOfYear + 2) / 153
  let month := if monthFromMarch < 10 then monthFromMarch + 3 else monthFromMarch - 9
  { year := cycle * 400 + yearOfCycle + (if month ≤ 2 then 1 else 0)
    month := month
    day := dayOfYear - (153 * monthFromMarch + 2) / 5 + 1 }

/-- The first second of year -262143. -/
def firstSecond : Int := -8334601228800

/-- The last second of year 262142. -/
def lastSecond : Int := 8210266876799

/-- The text of a year: four digits from 0 to 9999, else a sign and at least four. -/
def yearText (year : Int) : String :=
  if year < 0 then "-" ++ decimalPadded 4 (-year).toNat
  else if year ≤ 9999 then decimalPadded 4 year.toNat
  else "+" ++ decimal year.toNat

/-- An integer in decimal, a minus sign before a negative one. -/
def signedDecimal (n : Int) : String :=
  if n < 0 then "-" ++ decimal (-n).toNat else decimal n.toNat

/-- The date and time of day `seconds` after the start of 1970. -/
def format (seconds : Int) : String :=
  if firstSecond ≤ seconds ∧ seconds ≤ lastSecond then
    let date := dateOfDay (seconds / 86400)
    let second := (seconds % 86400).toNat
    yearText date.year ++ "-" ++ decimalPadded 2 date.month ++ "-" ++ decimalPadded 2 date.day
      ++ " " ++ decimalPadded 2 (second / 3600) ++ ":" ++ decimalPadded 2 (second / 60 % 60)
      ++ ":" ++ decimalPadded 2 (second % 60)
  else
    "<invalid time " ++ signedDecimal seconds ++ ">"

end DiskScope.Text.Calendar
