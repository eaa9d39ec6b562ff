import EventSieve.Time.Date
import EventSieve.Text

/-!
Points in time with the zone they were recorded in. An instant counts
nanoseconds from the start of 1970 in UTC, a zone is a fixed number of seconds
east of UTC, and a civil moment is what a calendar and a clock in a zone show.
-/

namespace EventSieve

def nanosPerSecond : Int := 1000000000

def secondsPerDay : Int := 86400

/-- A calendar day with the hour, minute and second of a clock on it. -/
structure Civil where
  date : Date
  hour : Int
  minute : Int
  second : Int
  deriving DecidableEq, Repr

namespace Civil

/-- The moment that a clock shows when its fields run over or below their range: seconds are
    carried into minutes, minutes into hours, hours into days and days into the calendar. -/
def ofFields (date : Date) (hour minute second : Int) : Civil :=
  let minutes := minute + second / 60
  let hours := hour + minutes / 60
  { date := Date.ofDayNumber (date.dayNumber + hours / 24)
    hour := hours % 24
    minute := minutes % 60
    second := second % 60 }

/-- Seconds from the start of 1970 on a clock that shows this moment. -/
def clockSeconds (moment : Civil) : Int :=
  secondsPerDay * moment.date.dayNumber + 3600 * moment.hour + 60 * moment.minute + moment.second

/-- The moment that a clock shows after the given seconds of 1970. -/
def ofClockSeconds (seconds : Int) : Civil :=
  let inDay := seconds % secondsPerDay
  { date := Date.ofDayNumber (seconds / secondsPerDay)
    hour := inDay / 3600
    minute := inDay % 3600 / 60
    second := inDay % 60 }

end Civil

/-- An instant in nanoseconds and the zone of the clock it was read from. -/
structure Stamp where
  instant : Int
  zone : Int
  deriving DecidableEq, Repr

namespace Stamp

/-- Whole seconds of the instant, floored. -/
def unixSeconds (stamp : Stamp) : Int := stamp.instant / nanosPerSecond

/-- Nanoseconds past the whole second, never negative. -/
def subsecond (stamp : Stamp) : Int := stamp.instant % nanosPerSecond

/-- What calendar and clock show in the zone of the stamp. -/
def civil (stamp : Stamp) : Civil := Civil.ofClockSeconds (stamp.unixSeconds + stamp.zone)

/-- A zone as sign, hours and minutes; the sign is a plus when both are zero. -/
def zoneText (zone : Int) : String :=
  let minutes := zone.natAbs / 60
  let sign := if zone < 0 ∧ minutes ≠ 0 then "-" else "+"
  sign ++ Text.paddedText 2 (minutes / 60) ++ ":" ++ Text.paddedText 2 (minutes % 60)

/-- A year in at least four places, of which the sign of a year before 0 takes one. -/
def yearText (year : Int) : String :=
  if year < 0 then "-" ++ Text.paddedText 3 year.natAbs else Text.paddedText 4 year.natAbs

/-- Exact date, clock and zone, joined as RFC 3339 asks, with as many digits of the second's
    fraction as are needed. -/
def text (stamp : Stamp) : String :=
  let moment := stamp.civil
  let two (n : Int) := Text.paddedText 2 n.toNat
  yearText moment.date.year ++ "-" ++ two moment.date.month ++ "-" ++ two moment.date.day ++
    "T" ++ two moment.hour ++ ":" ++ two moment.minute ++ ":" ++ two moment.second ++
    Text.fractionText 9 stamp.subsecond.toNat ++ zoneText stamp.zone

end Stamp

end EventSieve
