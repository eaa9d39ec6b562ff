import EventSieve.Text

/-!
Log lines made of keys and values.
-/

namespace EventSieve

inductive LineValue
  | text (value : String)
  | number (value : Int)
  | flag (value : Bool)
  deriving DecidableEq, Repr

/-- The text of a value; a flag is one or zero. -/
def LineValue.write : LineValue → String
  | .text value => value
  | .number value => Text.intText value
  | .flag value => if value then "1" else "0"

/-- Keys and values in the order in which they were given. -/
abbrev Line := List (String × LineValue)

namespace Line

/-- A key up to its first NUL, which ends it. -/
def keyText (key : String) : String := String.ofList (key.toList.takeWhile (· ≠ '\x00'))

/-- Exact text of a line: a colon after each key, a tab between pairs, nothing escaped. -/
def write (line : Line) : String :=
  Text.joined "\t" (line.map fun pair => keyText pair.1 ++ ":" ++ pair.2.write)

end Line

end EventSieve
