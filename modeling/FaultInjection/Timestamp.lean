import FaultInjection.Number.Decimal

/-!
# Timestamps - Dates and times of day

A point in time is a number of milliseconds since the start of 1970.  Its text
gives the date of the Gregorian calendar and the time of day to the millisecond.
Years start in March for the reckoning, so that the day that a leap year adds is
the last of its year.

Main definitions:

- `Timestamp.Date`, and `Timestamp.ofDays`, the date some days after the start.
- `Timestamp.text`, the text of a point in time.
-/

namespace FaultInjection

namespace Timestamp

/-- A date of the calendar. -/
structure Date where
  year : Int
  month : Nat
  day : Nat
  deriving DecidableEq, Repr

/-- The days in 400 years. -/
def cycleDays : Nat := 146097

/-- The days from the first of March of the year zero to the start of 1970. -/
def daysToStart : Nat := 719468

/-- The year within a cycle of 400 years of a day of the cycle. -/
def yearOfCycle (day : Nat) : Nat := (day - day / 1460 + day / 36524 - day / 146096) / 365

/-- The date some days after the start of 1970. -/
def ofDays (days : Int) : Date :=
  let shifted := days + daysToStart
  let cycle := shifted / cycleDays
  let day := (shifted % cycleDays).toNat
  let year := yearOfCycle day
  let dayOfYear := day - (365 * year + year / 4 - year / 100)
  let monthFromMarch := (5 * dayOfYear + 2) / 153
  let month := if monthFromMarch < 10 then monthFromMarch + 3 else monthFromMarch - 9
  { year := cycle * 400 + year + (if month ≤ 2 then 1 else 0)
    month
    day := dayOfYear - (153 * monthFromMarch + 2) / 5 + 1 }

/-- A natural number in decimal digits, filled with zeros to a width. -/
def padded (width n : Nat) : String :=
  let digits := Nat.repr n
  String.ofList (List.replicate (width - digits.length) '0') ++ digits

/-- The text of a year: four digits, or a sign and six digits beyond those. -/
def yearText (year : Int) : String :=
  if 0 ≤ year && year ≤ 9999 then padded 4 year.toNat
  else (if year < 0 then "-" else "+") ++ padded 6 year.natAbs

/-- The text of a date. -/
def Date.text (date : Date) : String :=
  yearText date.year ++ "-" ++ padded 2 date.month ++ "-" ++ padded 2 date.day

/-- The milliseconds of a day. -/
def dayMilliseconds : Nat := 86400000

/-- The text of a time of day in milliseconds. -/
def timeText (ms : Nat) : String :=
  padded 2 (ms / 3600000) ++ ":" ++ padded 2 (ms / 60000 % 60) ++ ":" ++
    padded 2 (ms / 1000 % 60) ++ "." ++ padded 3 (ms % 1000)

/-- The text of a whole number of milliseconds since the start of 1970. -/
def textOfWhole (ms : Int) : String :=
  (ofDays (ms / dayMilliseconds)).text ++ "T" ++ timeText (ms % dayMilliseconds).toNat ++ "Z"

/-- The text of a point in time; a fraction of a millisecond does not count. -/
def text (ms : Number) : String :=
  let whole := if ms.lt 0 then -(-ms).floor else ms.floor
  textOfWhole (whole.toInt?.getD 0)

/-- The first day of March 2000. -/
example : ofDays 11017 = ⟨2000, 3, 1⟩ := by decide

end Timestamp

end FaultInjection
