/-!
# The calendar

Days are counted from the first of January 1970, in the Gregorian calendar extended to
all years. A `Moment` is a second of a day in Coordinated Universal Time; the sixtieth
second, which a leap second adds to a minute, is kept apart from the one that follows it.

The count of days goes through years that start in March, so that the leap day is the
last day of its year: 153 days make five months, and 146097 days make 400 years.

## Main definitions

* `Date`, `Date.isValid`, `Date.toDays`, `Date.ofDays`: dates and their count.
* `Moment`, `Moment.ofSeconds`, `Moment.shiftMinutes`: moments.
* `Moment.text`: the text of a moment.
-/

namespace AgentPipeline

/-- A date. -/
structure Date where
  year : Int
  month : Nat
  day : Nat
  deriving Repr, DecidableEq, Inhabited

namespace Date

/-- Years with a leap day. -/
def isLeapYear (year : Int) : Bool :=
  year % 4 == 0 && (year % 100 != 0 || year % 400 == 0)

/-- The number of days of a month. -/
def daysInMonth (year : Int) (month : Nat) : Nat :=
  if month = 2 then (if isLeapYear year then 29 else 28)
  else if month = 4 ∨ month = 6 ∨ month = 9 ∨ month = 11 then 30
  else 31

/-- The first and the last year that dates are in. -/
def firstYear : Int := -262143

/-- The last year that dates are in. -/
def lastYear : Int := 262142

/-- Dates of the calendar in the years covered. -/
def isValid (d : Date) : Bool :=
  firstYear ≤ d.year && d.year ≤ lastYear && 1 ≤ d.month && d.month ≤ 12 && 1 ≤ d.day &&
    d.day ≤ daysInMonth d.year d.month

/-- The number of days since the first of January 1970. -/
def toDays (d : Date) : Int :=
  let year := if d.month ≤ 2 then d.year - 1 else d.year
  let month : Int := if d.month ≤ 2 then d.month + 9 else d.month - 3
  let era := year / 400
  let yearOfEra := year % 400
  let dayOfYear := (153 * month + 2) / 5 + d.day - 1
  era * 146097 + yearOfEra * 365 + yearOfEra / 4 - yearOfEra / 100 + dayOfYear - 719468

/-- The date of a number of days since the first of January 1970. -/
def ofDays (days : Int) : Date :=
  let shifted := days + 719468
  let era := shifted / 146097
  let dayOfEra := shifted % 146097
  let yearOfEra :=
    (dayOfEra - dayOfEra / 1460 + dayOfEra / 36524 - dayOfEra / 146096) / 365
  let dayOfYear := dayOfEra - (365 * yearOfEra + yearOfEra / 4 - yearOfEra / 100)
  let month := (5 * dayOfYear + 2) / 153
  let day := dayOfYear - (153 * month + 2) / 5 + 1
  let year := yearOfEra + era * 400
  if month < 10 then ⟨year, (month + 3).toNat, day.toNat⟩
  else ⟨year + 1, (month - 9).toNat, day.toNat⟩

end Date

/-- A second of a day. -/
structure Moment where
  /-- the number of days since the first of January 1970 -/
  days : Int
  hour : Nat
  minute : Nat
  /-- the second of the minute; sixty in a leap second -/
  second : Nat
  deriving Repr, DecidableEq, Inhabited

namespace Moment

/-- The moment a number of seconds after the start of 1970, leap seconds not counted. -/
def ofSeconds (seconds : Int) : Moment :=
  let rest := (seconds % 86400).toNat
  ⟨seconds / 86400, rest / 3600, rest / 60 % 60, rest % 60⟩

/-- The moment some minutes later. -/
def shiftMinutes (m : Moment) (minutes : Int) : Moment :=
  let total := m.days * 1440 + m.hour * 60 + m.minute + minutes
  let rest := (total % 1440).toNat
  ⟨total / 1440, rest / 60, rest % 60, m.second⟩

/-- The date of a moment. -/
def date (m : Moment) : Date := Date.ofDays m.days

/-- The decimal digits of a number, with zeros in front up to a width. -/
def padded (width n : Nat) : String :=
  let digits := toString n
  String.ofList (List.replicate (width - digits.length) '0') ++ digits

/-- The text of a year: four digits, behind a sign if it is negative or needs more. -/
def yearText (year : Int) : String :=
  if 0 ≤ year ∧ year ≤ 9999 then padded 4 year.toNat
  else (if year < 0 then "-" else "+") ++ padded 4 year.natAbs

/-- The text of a moment: the date and the time of day. -/
def text (m : Moment) : String :=
  let d := m.date
  yearText d.year ++ "-" ++ padded 2 d.month ++ "-" ++ padded 2 d.day ++ " " ++
    padded 2 m.hour ++ ":" ++ padded 2 m.minute ++ ":" ++ padded 2 m.second

end Moment

end AgentPipeline
