import BuildFlow.Time.Instant
/-!
Dates of the proleptic Gregorian calendar and the ISO 8601 text of a reading.
Four hundred years form a period of 146097 days; counted from the first of
March, the leap day is the last day of its year.
-/
namespace BuildFlow

structure Date where
  year : Int
  month : Nat
  day : Nat
  deriving DecidableEq, Repr

/-- The years that a date can have. -/
def Date.inRange (date : Date) : Bool :=
  -262143 ≤ date.year && date.year ≤ 262142

/-- The date a number of days after 1970-01-01. -/
def Date.ofDays (days : Int) : Date :=
  -- Days since the first of March of the year 0.
  let shifted := days + 719468
  let period := shifted / 146097
  let dayOfPeriod := (shifted % 146097).toNat
  let yearOfPeriod :=
    (dayOfPeriod - dayOfPeriod / 1460 + dayOfPeriod / 36524 - dayOfPeriod / 146096) / 365
  let dayOfYear := dayOfPeriod - (365 * yearOfPeriod + yearOfPeriod / 4 - yearOfPeriod / 100)
  let month := (5 * dayOfYear + 2) / 153
  let year := (yearOfPeriod : Int) + period * 400
  { year := if month < 10 then year else year + 1
    month := if month < 10 then month + 3 else month - 9
    day := dayOfYear - (153 * month + 2) / 5 + 1 }

/-- A number with zeros in front up to a width. -/
def padded (width n : Nat) : String :=
  let text := toString n
  Decimal.zeros (width - text.length) ++ text

/-- Years outside 0 to 9999 carry their sign. -/
def Date.yearText (year : Int) : String :=
  if 0 ≤ year ∧ year ≤ 9999 then padded 4 year.natAbs
  else (if year < 0 then "-" else "+") ++ padded 4 year.natAbs

namespace Instant

def date (instant : Instant) : Date :=
  Date.ofDays (instant.micros / 86400000000)

def inCalendar (instant : Instant) : Bool := instant.date.inRange

/-- The ISO 8601 text with microseconds and an offset of zero. -/
def iso (instant : Instant) : String :=
  let date := instant.date
  let time := (instant.micros % 86400000000).toNat
  let seconds := time / 1000000
  Date.yearText date.year ++ "-" ++ padded 2 date.month ++ "-" ++ padded 2 date.day ++ "T" ++
    padded 2 (seconds / 3600) ++ ":" ++ padded 2 (seconds / 60 % 60) ++ ":" ++
    padded 2 (seconds % 60) ++ "." ++ padded 6 (time % 1000000) ++ "+00:00"

end Instant

end BuildFlow
