/-!
Days of the proleptic Gregorian calendar. A year is taken to start in March, so
that the leap day is its last day; `yearStart` counts the days before a year
from 0000-03-01 on, and `yearOf` finds the year that a day falls in.
-/

namespace EventSieve

/-- A day by its year, month (1 to 12) and day of the month. -/
structure Date where
  year : Int
  month : Int
  day : Int
  deriving DecidableEq, Repr

namespace Date

/-- Days from 0000-03-01 to 1970-01-01. -/
def epochDay : Int := 719468

/-- Exact days before the March of a year: a leap day in each fourth year, in no hundredth one
    but in each four-hundredth. -/
def yearStart (year : Int) : Int := 365 * year + year / 4 - year / 100 + year / 400

/-- Days of a year before its month number `m`, where March is 0. -/
def monthStart (m : Int) : Int := (153 * m + 2) / 5

/-- The March-based year of a day. A period of 400 years has 146097 days, its first three
    centuries 36524 each, a century's groups of four years 1461, their first three years 365. -/
def yearOf (n : Int) : Int :=
  let inPeriod := n % 146097
  let century := min (inPeriod / 36524) 3
  let inCentury := inPeriod - 36524 * century
  let inGroup := inCentury % 1461
  400 * (n / 146097) + 100 * century + 4 * (inCentury / 1461) + min (inGroup / 365) 3

/-- The month number, March being 0, of a day in its March-based year. -/
def monthOf (inYear : Int) : Int := (5 * inYear + 2) / 153

/-- Exact count of days from 1970-01-01, negative before it. -/
def dayNumber (date : Date) : Int :=
  let m := if 3 ≤ date.month then date.month - 3 else date.month + 9
  let year := if 3 ≤ date.month then date.year else date.year - 1
  yearStart year + monthStart m + (date.day - 1) - epochDay

/-- The day of the calendar that lies `n` days after 1970-01-01. -/
def ofDayNumber (n : Int) : Date :=
  let year := yearOf (n + epochDay)
  let inYear := n + epochDay - yearStart year
  let m := monthOf inYear
  { year := if m < 10 then year else year + 1
    month := if m < 10 then m + 3 else m - 9
    day := inYear - monthStart m + 1 }

end Date

end EventSieve
