/-
Instants as calendar dates and times, in universal time and to the second.

The calendar repeats every four hundred years. Inside such a period years are
counted from March, so that the leap day is the last day of its year and every
month but the last has the length that the pattern 31, 30, 31, 30, 31 gives it.
-/
import Admission.Word

set_option autoImplicit false

namespace Admission

/-! ## Days -/

/-- **A date.** -/
structure Date where
  year : Nat
  month : Nat
  day : Nat
  deriving DecidableEq

namespace Date

/-- Days from the first of March of the year 0 to the first of January of 1970. -/
def epochDay : Nat := 719468

/-- Days in four hundred years. -/
def periodDays : Nat := 146097

/-- Which year of its period a day is in: a year has 365 days, but the day that
ends four years, a hundred years or the period belongs to the year before it. -/
def yearOfPeriod (day : Nat) : Nat :=
  (day - day / 1460 + day / 36524 - day / 146096) / 365

/-- The first day of a year of a period. -/
def firstDay (year : Nat) : Nat := 365 * year + year / 4 - year / 100

/-- The month that a day of a year is in, March being 0: five months have 153 days. -/
def monthOfYear (day : Nat) : Nat := (5 * day + 2) / 153

/-- The first day of a month. -/
def firstOfMonth (month : Nat) : Nat := (153 * month + 2) / 5

/-- **The date so many days after the first of January of 1970.** -/
def ofDays (days : Nat) : Date :=
  let day := days + epochDay
  let period := day / periodDays
  let dayOfPeriod := day % periodDays
  let year := yearOfPeriod dayOfPeriod
  let dayOfYear := dayOfPeriod - firstDay year
  let month := monthOfYear dayOfYear
  -- January and February belong to the next year
  { year := period * 400 + year + (if month < 10 then 0 else 1)
    month := if month < 10 then month + 3 else month - 9
    day := dayOfYear - firstOfMonth month + 1 }

end Date

/-! ## Texts -/

/-- A number with zeros in front, up to a width. -/
def padded (width n : Nat) : String :=
  let digits := Nat.toDigits 10 n
  String.ofList (List.replicate (width - digits.length) '0' ++ digits)

/-- A year in four digits; a longer one has a plus sign. -/
def yearText (year : Nat) : String :=
  if year ≤ 9999 then padded 4 year else "+" ++ Nat.repr year

/-- The last second of the calendar, at the end of the year 262142. -/
def lastSecond : Nat := 8210266876799

/-- **The text of an instant** given in seconds since the epoch; nothing for one
that lies beyond the calendar. -/
def timestamp (seconds : Nat) : String :=
  if lastSecond < seconds then ""
  else
    let date := Date.ofDays (seconds / 86400)
    let time := seconds % 86400
    yearText date.year ++ "-" ++ padded 2 date.month ++ "-" ++ padded 2 date.day ++ "T" ++
      padded 2 (time / 3600) ++ ":" ++ padded 2 (time / 60 % 60) ++ ":" ++ padded 2 (time % 60) ++
      "Z"

end Admission
