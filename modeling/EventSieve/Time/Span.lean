import EventSieve.Text
import EventSieve.Time.Stamp

/-!
Lengths of time: ticks of either sign, four to the nanosecond, or endless in one
direction. `Span.read` accepts sums of numbers with units, such as `1h30m` or
`.5s`, and cuts each fraction to whole ticks; `Span.text` writes the shortest
sum of hours, minutes and seconds.
-/

namespace EventSieve

def ticksPerNano : Int := 4

/-- A length of time, counted in quarters of a nanosecond. -/
inductive Span
  | finite (ticks : Int)
  | endless
  | minusEndless
  deriving DecidableEq, Repr

namespace Span

def ofNanoseconds (n : Int) : Span := .finite (ticksPerNano * n)

def quarterHour : Span := ofNanoseconds (900 * nanosPerSecond)

/-- The span is below zero. -/
def isNegative : Span → Bool
  | .finite n => n < 0
  | .endless => false
  | .minusEndless => true

/-- The instant lies at most this span before or after the anchor, both ends included; instants
    count whole nanoseconds. -/
def covers (span : Span) (anchor instant : Int) : Bool :=
  match span with
  | .finite n =>
    ticksPerNano * anchor - n ≤ ticksPerNano * instant && ticksPerNano * instant ≤ ticksPerNano * anchor + n
  | .endless => true
  | .minusEndless => false

/-! ## Sums within the range -/

/-- Ticks of the shortest length that is not told from an endless one: `2 ^ 63` seconds. -/
def endlessFrom : Int := 36893488147419103232000000000

/-- The span of so many ticks, endless where they are out of range. -/
def ofTicks (n : Int) : Span :=
  if endlessFrom ≤ n then .endless else if n < -endlessFrom then .minusEndless else .finite n

/-- One span and then another; what is endless stays so, whatever follows it. -/
def add : Span → Span → Span
  | .finite m, .finite n => ofTicks (m + n)
  | .finite _, later => later
  | first, _ => first

/-- One of so many equal parts, cut toward zero to whole ticks; each part of an endless span is
    endless. -/
def part (span : Span) (count : Nat) : Span :=
  match span with
  | .finite n => .finite (n.tdiv count)
  | .endless => .endless
  | .minusEndless => .minusEndless

/-! ## Reading -/

/-- A unit of a written span. -/
inductive TimeUnit
  | nanosecond
  | microsecond
  | millisecond
  | second
  | minute
  | hour
  deriving DecidableEq, Repr

namespace TimeUnit

/-- Nanoseconds in the unit. -/
def size : TimeUnit → Int
  | .nanosecond => 1
  | .microsecond => 1000
  | .millisecond => 1000000
  | .second => nanosPerSecond
  | .minute => 60 * nanosPerSecond
  | .hour => 3600 * nanosPerSecond

def ticks (unit : TimeUnit) : Int := ticksPerNano * unit.size

/-- The unit at the start of a text and the text after it; two letters are tried before one. -/
def take : List Char → Option (TimeUnit × List Char)
  | 'n' :: 's' :: rest => some (.nanosecond, rest)
  | 'u' :: 's' :: rest => some (.microsecond, rest)
  | 'm' :: 's' :: rest => some (.millisecond, rest)
  | 's' :: rest => some (.second, rest)
  | 'm' :: rest => some (.minute, rest)
  | 'h' :: rest => some (.hour, rest)
  | _ => none

theorem length_take {text rest : List Char} {unit : TimeUnit} (taken : take text = some (unit, rest)) :
    rest.length < text.length := by
  unfold take at taken
  split at taken <;> grind

end TimeUnit

/-- The largest whole part that a number of a span may have. -/
def wholeLimit : Nat := 9223372036854775807

/-- A written number: its whole part and the digits after its point. -/
structure Quantity where
  whole : Nat
  fraction : List Char
  deriving DecidableEq, Repr

namespace Quantity

/-- What follows a whole part: the digits after a point, if there is one, and the text after them. -/
def takeFraction : List Char → List Char × List Char
  | '.' :: rest => (rest.takeWhile Char.isDigit, rest.dropWhile Char.isDigit)
  | rest => ([], rest)

/-- The number at the start of a text and the text after it. A point may stand first or last, but
    there is a digit. -/
def take (text : List Char) : Option (Quantity × List Char) :=
  let digits := text.takeWhile Char.isDigit
  let (fraction, rest) := takeFraction (text.dropWhile Char.isDigit)
  let whole := Nat.ofDigitChars 10 digits 0
  if digits = [] ∧ fraction = [] then none
  else if wholeLimit < whole then none
  else some (⟨whole, fraction⟩, rest)

theorem length_takeFraction (text : List Char) : (takeFraction text).2.length ≤ text.length := by
  unfold takeFraction
  split
  · exact Nat.le_succ_of_le (List.dropWhile_suffix _).length_le
  · exact Nat.le_refl _

theorem length_take {text rest : List Char} {number : Quantity} (taken : take text = some (number, rest)) :
    rest.length ≤ text.length := by
  have shorter := Nat.le_trans (length_takeFraction (text.dropWhile Char.isDigit))
    (List.dropWhile_suffix Char.isDigit).length_le
  unfold take at taken
  grind

/-- How many digits of a fraction count; further ones are dropped. -/
def fractionLimit : Nat := 18

/-- The digits of the fraction that count. -/
def digits (number : Quantity) : List Char := number.fraction.take fractionLimit

/-- The digits of the fraction as one whole number, to be divided by the denominator. -/
def numerator (number : Quantity) : Nat := Nat.ofDigitChars 10 number.digits 0

def denominator (number : Quantity) : Nat := Nat.pow 10 number.digits.length

/-- What the number comes to with a sign and a unit: its whole part, and then its fraction. The
    numerator is counted in units before it is divided, and may be out of range then. -/
def spans (number : Quantity) (sign : Int) (unit : TimeUnit) : List Span :=
  [ofTicks (sign * (number.whole * unit.ticks)),
    (ofTicks (sign * (number.numerator * unit.ticks))).part number.denominator]

end Quantity

/-- The number with its unit at the start of a text and the text after them. -/
def takeTerm (text : List Char) : Option ((Quantity × TimeUnit) × List Char) :=
  match Quantity.take text with
  | none => none
  | some (number, rest) => (TimeUnit.take rest).map fun (unit, rest) => ((number, unit), rest)

theorem length_takeTerm {text rest : List Char} {term : Quantity × TimeUnit}
    (taken : takeTerm text = some (term, rest)) : rest.length < text.length := by
  unfold takeTerm at taken
  split at taken
  · simp at taken
  · rename_i number after numberTaken
    obtain ⟨⟨unit, unitRest⟩, unitTaken, same⟩ := Option.map_eq_some_iff.1 taken
    have := Quantity.length_take numberTaken
    have := TimeUnit.length_take unitTaken
    have : unitRest = rest := by simpa using congrArg Prod.snd same
    subst this
    omega

/-- The numbers with units that a text is made of, at least one, with nothing between them. -/
def readTerms (text : List Char) : Option (List (Quantity × TimeUnit)) :=
  match _ : takeTerm text with
  | none => none
  | some (term, []) => some [term]
  | some (term, rest) => (readTerms rest).map (term :: ·)
termination_by text.length
decreasing_by exact length_takeTerm ‹_›

/-- Sum of numbers with units, all of one sign and added in order. -/
def total (sign : Int) (terms : List (Quantity × TimeUnit)) : Span :=
  (terms.flatMap fun term => term.1.spans sign term.2).foldl add (.finite 0)

/-- A span after its sign: `0`, `inf`, or a sum of numbers with units. -/
def readSigned (sign : Int) (text : List Char) : Option Span :=
  if text = ['0'] then some (.finite 0)
  else if text = ['i', 'n', 'f'] then some (if sign < 0 then .minusEndless else .endless)
  else (readTerms text).map (total sign)

/-- A span with at most one sign before it, which is that of each number in it. -/
def read (text : String) : Option Span :=
  match text.toList with
  | '-' :: rest => readSigned (-1) rest
  | '+' :: rest => readSigned 1 rest
  | rest => readSigned 1 rest

/-! ## Writing -/

/-- A count of smaller units in a unit of `10 ^ width` of them, with a fraction where needed. -/
def decimalText (width n : Nat) (unit : String) : String :=
  Text.natText (n / Nat.pow 10 width) ++ Text.fractionText width (n % Nat.pow 10 width) ++ unit

/-- Hours and minutes, each left out when zero, then the seconds with their fraction. -/
def clockText (n : Nat) : String :=
  let part (count : Nat) (write : Nat → String) := if count = 0 then "" else write count
  part (n / 360000000000000) (fun hours => Text.natText hours ++ "h") ++
    part (n % 360000000000000 / 6000000000000) (fun minutes => Text.natText minutes ++ "m") ++
    part (n % 6000000000000) (fun rest => decimalText 11 rest "s")

/-- Hundredths of a nanosecond in the largest unit that they fill, from seconds on in hours, minutes
    and seconds. -/
def sizeText (n : Nat) : String :=
  if n = 0 then "0"
  else if n < 100000 then decimalText 2 n "ns"
  else if n < 100000000 then decimalText 5 n "us"
  else if n < 100000000000 then decimalText 8 n "ms"
  else clockText n

/-- Exact text of a span, with a minus sign when it is negative. -/
def text : Span → String
  | .finite n => (if n < 0 then "-" else "") ++ sizeText (25 * n.natAbs)
  | .endless => "inf"
  | .minusEndless => "-inf"

end Span

end EventSieve
