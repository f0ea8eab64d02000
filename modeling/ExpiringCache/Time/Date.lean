/-!
# Calendar dates

Dates of the Gregorian calendar, extended to all years, and their distance in days from
1970-01-01. Years are reckoned from March, so that a leap day is the last day of its year.
-/

namespace ExpiringCache

/-- A year, a month from 1 to 12 and a day from 1 on. -/
structure Date where
  /-- The year; year 0 precedes year 1. -/
  year : Int
  /-- The month, January being 1. -/
  month : Nat
  /-- The day of the month. -/
  day : Nat
  deriving DecidableEq, Repr

namespace Date

/-- The year has a leap day. -/
def isLeapYear (year : Int) : Bool :=
  year % 4 == 0 && (year % 100 != 0 || year % 400 == 0)

/-- The number of days of a month. -/
def daysInMonth (year : Int) (month : Nat) : Nat :=
  match month with
  | 2 => if isLeapYear year then 29 else 28
  | 4 | 6 | 9 | 11 => 30
  | _ => 31

/-- The month has the day. -/
def isValid (date : Date) : Bool :=
  1 ≤ date.month && date.month ≤ 12 && 1 ≤ date.day &&
    date.day ≤ daysInMonth date.year date.month

/-- The days from March 1 of year 0 to March 1 of `year`. -/
def daysBefore (year : Int) : Int := 365 * year + year / 4 - year / 100 + year / 400

/-- The days from March 1 of year 0 to 1970-01-01. -/
def epoch : Int := 719468

/-- The days from 1970-01-01 to the date. -/
def toDays (date : Date) : Int :=
  let year := if date.month ≤ 2 then date.year - 1 else date.year
  let month := (date.month + 9) % 12
  daysBefore year + ((153 * month + 2) / 5 + date.day - 1 : Nat) - epoch

/-- The date `days` days after 1970-01-01. -/
def ofDays (days : Int) : Date :=
  let cycle := (days + epoch) / 146097
  let rest := ((days + epoch) % 146097).toNat
  let year := (rest - rest / 1460 + rest / 36524 - rest / 146096) / 365
  let rest := rest - (365 * year + year / 4 - year / 100)
  let month := (5 * rest + 2) / 153
  let day := rest - (153 * month + 2) / 5 + 1
  let year := year + 400 * cycle
  if month < 10 then ⟨year, month + 3, day⟩ else ⟨year + 1, month - 9, day⟩

end Date

end ExpiringCache
