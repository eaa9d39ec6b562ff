/-!
Plain text as lists of characters: the pieces between separators, and
decimal literals. Joined with the separator again, the pieces of a text are the
text, and what `natText` writes `readNat` reads back.
-/

namespace EventSieve.Text

/-- The piece before the first separator, and the pieces after it. -/
def splitFirst (separator : Char) : List Char → List Char × List (List Char)
  | [] => ([], [])
  | c :: rest =>
    let (piece, others) := splitFirst separator rest
    if c = separator then ([], piece :: others) else (c :: piece, others)

/-- Exact pieces between separators, empty ones kept: one more than there are separators. -/
def pieces (separator : Char) (text : List Char) : List (List Char) :=
  let (piece, others) := splitFirst separator text
  piece :: others

/-- Exact pieces of a text, each as a text of its own. -/
def split (separator : Char) (text : String) : List String :=
  (pieces separator text.toList).map String.ofList

/-- The texts in order with the separator between neighbours. -/
def joined (separator : String) : List String → String
  | [] => ""
  | [text] => text
  | text :: rest => text ++ separator ++ joined separator rest

/-! ## Decimal literals -/

/-- Decimal digits of a number, without leading zeros. -/
def natText (n : Nat) : String := String.ofList (Nat.toDigits 10 n)

/-- Decimal digits of an integer, with a minus sign when it is negative. -/
def intText (n : Int) : String :=
  if n < 0 then "-" ++ natText n.natAbs else natText n.natAbs

/-- Decimal digits of a number, filled up with leading zeros to the width. -/
def paddedText (width n : Nat) : String :=
  let digits := Nat.toDigits 10 n
  String.ofList (List.replicate (width - digits.length) '0' ++ digits)

/-- The value of one or more ASCII digits; leading zeros do not count. -/
def readNat (text : List Char) : Option Nat :=
  if text ≠ [] ∧ text.all Char.isDigit then some (Nat.ofDigitChars 10 text 0) else none

/-- The value of one or more ASCII digits after at most one sign; nothing else may stand there, no
    blank either. -/
def readInt : List Char → Option Int
  | '-' :: digits => (readNat digits).map fun n => -(n : Int)
  | '+' :: digits => (readNat digits).map fun n => (n : Int)
  | digits => (readNat digits).map fun n => (n : Int)

/-- Digits of a fraction in units of `10 ^ -width`, without trailing zeros. -/
def fractionDigits (width n : Nat) : List Char :=
  ((paddedText width n).toList.reverse.dropWhile (· = '0')).reverse

/-- A point and the fraction's digits, or nothing when the fraction is zero. -/
def fractionText (width n : Nat) : String :=
  if n = 0 then "" else "." ++ String.ofList (fractionDigits width n)

end EventSieve.Text
