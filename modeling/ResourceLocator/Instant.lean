/-!
# Instants and dates

An instant is a number of milliseconds, counted from the start of 1970 and negative before it.
Dates are those of the proleptic Gregorian calendar, and all times are in universal time.

`Instant.dateOfDay` and `Instant.dayOfDate` go from days to dates and back; the latter also takes
months beyond the twelfth.
-/

namespace ResourceLocator

/-- An instant, in milliseconds from the start of 1970. -/
abbrev Instant := Int

namespace Instant

/-- A natural number with at least `width` digits. -/
def padded (width n : Nat) : List Char :=
  let digits := Nat.toDigits 10 n
  List.replicate (width - digits.length) '0' ++ digits

/-- A date of the calendar. -/
structure Date where
  /-- The year. -/
  year : Int
  /-- The month, from 1. -/
  month : Nat
  /-- The day of the month, from 1. -/
  day : Nat
  deriving DecidableEq, Repr

/-- The date of a day, counted from the start of 1970. The count is moved to the first of March
of the year 0, so that leap days stand at the end of their years, and cut into spans of 400
years. -/
def dateOfDay (day : Int) : Date :=
  let z := day + 719468
  let era := z.fdiv 146097
  let doe := (z - era * 146097).toNat
  let yoe := (doe - doe / 1460 + doe / 36524 - doe / 146096) / 365
  let doy := doe - (365 * yoe + yoe / 4 - yoe / 100)
  let mp := (5 * doy + 2) / 153
  let month := if mp < 10 then mp + 3 else mp - 9
  ⟨era * 400 + yoe + (if month ≤ 2 then 1 else 0), month, doy - (153 * mp + 2) / 5 + 1⟩

/-- The first day of a month, counted from the start of 1970; `months` is counted from the start
of the year and may go beyond it. The years start in March here, as in `dateOfDay`. -/
def firstDay (year : Int) (months : Int) : Int :=
  let shifted := year * 12 + months - 2
  let y := shifted.fdiv 12
  let mp := (shifted.fmod 12).toNat
  365 * y + y.fdiv 4 - y.fdiv 100 + y.fdiv 400 + ((153 * mp + 2) / 5 : Nat) - 719468

/-- The day of a year, a month from 1 and a day of the month from 1, counted from the start of
1970. Months and days beyond their range go on into the next. -/
def dayOfDate (year : Int) (month day : Nat) : Int :=
  firstDay year ((month : Int) - 1) + day - 1

/-- An instant taken apart: its day and the milliseconds of that day. -/
def split (t : Instant) : Int × Nat :=
  let day := Int.fdiv t 86400000
  (day, (t - day * 86400000).toNat)

/-- The hours, minutes and seconds of a number of milliseconds. -/
def clock (ms : Nat) : List Char :=
  padded 2 (ms / 3600000) ++ ':' :: padded 2 (ms / 60000 % 60) ++
    ':' :: padded 2 (ms / 1000 % 60)

/-- A year, with a sign if it has more than four digits or is negative. -/
def yearText (year : Int) : List Char :=
  if 0 ≤ year && year ≤ 9999 then padded 4 year.toNat
  else (if year < 0 then '-' else '+') :: padded 6 year.natAbs

/-- The timestamp of an instant, to the millisecond. A year outside 0 to 9999 has a sign and six
digits. -/
def timestamp (t : Instant) : List Char :=
  let (day, ms) := split t
  let date := dateOfDay day
  yearText date.year ++ '-' :: padded 2 date.month ++ '-' :: padded 2 date.day ++
    'T' :: clock ms ++ '.' :: padded 3 (ms % 1000) ++ ['Z']

/-- The names of the days of the week; the first of January 1970 was a Thursday. -/
def dayNames : List String := ["Thu", "Fri", "Sat", "Sun", "Mon", "Tue", "Wed"]

/-- The names of the months. -/
def monthNames : List String :=
  ["Jan", "Feb", "Mar", "Apr", "May", "Jun", "Jul", "Aug", "Sep", "Oct", "Nov", "Dec"]

/-- An instant in words, to the second. -/
def words (t : Instant) : String :=
  let (day, ms) := split t
  let date := dateOfDay day
  let year := if date.year < 0 then '-' :: padded 6 date.year.natAbs
    else padded 4 date.year.toNat
  dayNames.getD (day.fmod 7).toNat "" ++ " " ++ monthNames.getD (date.month - 1) "" ++ " " ++
    String.ofList (padded 2 date.day ++ ' ' :: year ++ ' ' :: clock ms) ++
    " GMT+0000 (Coordinated Universal Time)"

end Instant

end ResourceLocator
