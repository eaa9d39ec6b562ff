import EventSieve.Text
import EventSieve.Time.Stamp
import EventSieve.Variable

/-!
A time of day written as `HH:MM` or `HH:MM:SS`, and the instant that it names on
the calendar day of another stamp. Parts may lie outside a clock's range: they
are carried over into the day, so `24:00` is the midnight that ends it.
-/

namespace EventSieve

/-- Hours, minutes and seconds as they were written. -/
structure ClockTime where
  hour : Int := 0
  minute : Int := 0
  second : Int := 0
  deriving DecidableEq, Repr

namespace ClockTime

inductive Part
  | hours
  | minutes
  | seconds
  deriving DecidableEq, Repr

def Part.name : Part → String
  | .hours => "hours"
  | .minutes => "minutes"
  | .seconds => "seconds"

inductive ReadError
  | partCount (count : Nat)
  | notAnInteger (part : Part) (text : String)
  deriving DecidableEq, Repr

def ReadError.message : ReadError → String
  | .partCount count => "must be HH:MM or HH:MM:SS, got " ++ Text.natText count ++ " part(s)"
  | .notAnInteger part text => part.name ++ " component \"" ++ text ++ "\" is not an integer"

/-- The range of a part: the integers of 32 bits. -/
def inRange (n : Int) : Bool := -2147483648 ≤ n && n ≤ 2147483647

/-- The value of a part: an integer in range. -/
def readPart (part : Part) (text : List Char) : Except ReadError Int :=
  match (Text.readInt text).filter inRange with
  | some n => .ok n
  | none => .error (.notAnInteger part (String.ofList text))

/-- Exact reading of a time of day; of several faulty parts the leftmost is reported. -/
def read (text : String) : Except ReadError ClockTime :=
  match Text.pieces ':' text.toList with
  | [h, m] => do
    let hour ← readPart .hours h
    let minute ← readPart .minutes m
    return { hour, minute }
  | [h, m, s] => do
    let hour ← readPart .hours h
    let minute ← readPart .minutes m
    let second ← readPart .seconds s
    return { hour, minute, second }
  | parts => .error (.partCount parts.length)

/-- Reads into a variable; an earlier complaint outlives a success, an earlier value a failure. -/
def readInto (text : String) (old : Variable ClockTime) : Bool × Variable ClockTime :=
  old.receive ReadError.message (read text)

/-- The time of day on the reference's calendar day in its zone, keeping its part of a second. -/
def anchor (time : ClockTime) (reference : Stamp) : Int :=
  let moment := Civil.ofFields reference.civil.date time.hour time.minute time.second
  (moment.clockSeconds - reference.zone) * nanosPerSecond + reference.subsecond

end ClockTime

end EventSieve
