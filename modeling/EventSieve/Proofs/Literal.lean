import EventSieve.Text
import Mathlib.Data.List.DropRight

/-!
Integer literals: at most one sign and one or more decimal digits, with nothing
before, between or after them. Reading accepts exactly the texts of literals and
gives their values. A literal has no blanks at its ends, and leading zeros do
not change what it stands for.
-/

namespace EventSieve

/-- What may stand before the digits of an integer. -/
inductive Sign
  | absent
  | plus
  | minus
  deriving DecidableEq, Repr

def Sign.letters : Sign → List Char
  | .absent => []
  | .plus => ['+']
  | .minus => ['-']

def Sign.apply : Sign → Nat → Int
  | .absent, n => n
  | .plus, n => n
  | .minus, n => -n

/-- A written integer: a sign and its digits, of which there is one at least. -/
structure Literal where
  sign : Sign
  digits : List Char
  nonempty : digits ≠ []
  decimal : ∀ c ∈ digits, c.isDigit = true

namespace Literal

def letters (literal : Literal) : List Char := literal.sign.letters ++ literal.digits

def text (literal : Literal) : String := String.ofList literal.letters

def value (literal : Literal) : Int := literal.sign.apply (Nat.ofDigitChars 10 literal.digits 0)

/-- The digits of a number after as many zeros, without a sign. -/
def ofNat (zeros n : Nat) : Literal where
  sign := .absent
  digits := List.replicate zeros '0' ++ Nat.toDigits 10 n
  nonempty := List.append_ne_nil_of_right_ne_nil _ Nat.toDigits_ne_nil
  decimal := by
    intro c member
    rcases List.mem_append.1 member with zero | digit
    · rw [List.eq_of_mem_replicate zero]
      rfl
    · exact Nat.isDigit_of_mem_toDigits (by decide) (by decide) digit

theorem value_ofNat (zeros n : Nat) : (ofNat zeros n).value = n := by
  simp only [value, ofNat, Sign.apply, Nat.ofDigitChars_append, Nat.ofDigitChars_replicate_zero,
    Nat.mul_zero, Nat.ofDigitChars_ten_toDigits]

end Literal

namespace Text

theorem readNat_eq_some_iff {digits : List Char} {n : Nat} :
    readNat digits = some n ↔
      (digits ≠ [] ∧ ∀ c ∈ digits, c.isDigit = true) ∧ Nat.ofDigitChars 10 digits 0 = n := by
  simp only [readNat, List.all_eq_true, Option.ite_none_right_eq_some, Option.some.injEq]

/-- What is read as an integer is split into a sign and the rest. -/
theorem exists_sign (letters : List Char) :
    ∃ sign : Sign, ∃ digits, sign.letters ++ digits = letters ∧
      readInt letters = (readNat digits).map sign.apply := by
  unfold readInt
  split
  · rename_i digits
    refine ⟨.minus, digits, rfl, ?_⟩
    cases readNat digits <;> rfl
  · rename_i digits
    refine ⟨.plus, digits, rfl, ?_⟩
    cases readNat digits <;> rfl
  · refine ⟨.absent, letters, rfl, ?_⟩
    cases readNat letters <;> rfl

/-- Before digits a sign is read as such, and one that is absent stays absent. -/
theorem readInt_signed (sign : Sign) {digits : List Char} (decimal : ∀ c ∈ digits, c.isDigit = true) :
    readInt (sign.letters ++ digits) = (readNat digits).map sign.apply := by
  cases sign with
  | plus =>
    show readInt ('+' :: digits) = _
    rw [readInt]
    cases readNat digits <;> rfl
  | minus =>
    show readInt ('-' :: digits) = _
    rw [readInt]
    cases readNat digits <;> rfl
  | absent =>
    -- Neither sign is a digit, so the digits do not start with one.
    show readInt digits = _
    unfold readInt
    split
    · exact absurd (decimal '-' List.mem_cons_self) (by decide)
    · exact absurd (decimal '+' List.mem_cons_self) (by decide)
    · cases readNat digits <;> rfl

/-- Reading accepts the literals, and gives their values. -/
theorem readInt_eq_some_iff {letters : List Char} {n : Int} :
    readInt letters = some n ↔ ∃ literal : Literal, literal.letters = letters ∧ literal.value = n := by
  constructor
  · intro read
    obtain ⟨sign, digits, rfl, result⟩ := exists_sign letters
    obtain ⟨m, isNat, rfl⟩ := Option.map_eq_some_iff.1 (result.symm.trans read)
    obtain ⟨⟨nonempty, decimal⟩, rfl⟩ := readNat_eq_some_iff.1 isNat
    exact ⟨⟨sign, digits, nonempty, decimal⟩, rfl, rfl⟩
  · rintro ⟨⟨sign, digits, nonempty, decimal⟩, rfl, rfl⟩
    have isNat := readNat_eq_some_iff.2 ⟨⟨nonempty, decimal⟩, rfl⟩
    show readInt (sign.letters ++ digits) = _
    rw [readInt_signed sign decimal, isNat]
    rfl

/-! ## Blanks -/

/-- ASCII whitespace: a space, or one of the controls from the tab to the carriage return. -/
def isBlank (c : Char) : Bool := c = ' ' || ('\t' ≤ c && c ≤ '\r')

/-- The text without the blanks before and after it. -/
def stripped (text : String) : String :=
  String.ofList (List.rdropWhile isBlank (text.toList.dropWhile isBlank))

theorem not_isBlank_of_isDigit {c : Char} (digit : c.isDigit = true) : isBlank c = false := by
  simp only [Char.isDigit, Bool.and_eq_true, decide_eq_true_eq, ge_iff_le, UInt32.le_iff_toNat_le] at digit
  simp only [isBlank, Bool.or_eq_false_iff, decide_eq_false_iff_not, Bool.and_eq_false_iff, Char.le_def,
    UInt32.le_iff_toNat_le]
  refine ⟨?_, Or.inr ?_⟩
  · rintro rfl
    exact absurd digit.1 (by decide)
  · intro late
    have early : '\r'.val.toNat < '0'.val.toNat := by decide
    omega

end Text

namespace Literal

/-- A character of a literal is a sign or a digit. -/
theorem letter_cases {literal : Literal} {c : Char} (letter : c ∈ literal.letters) :
    c = '+' ∨ c = '-' ∨ c.isDigit = true := by
  obtain ⟨sign, digits, nonempty, decimal⟩ := literal
  rcases List.mem_append.1 letter with signed | digit
  · cases sign with
    | absent => cases signed
    | plus => exact Or.inl (List.mem_singleton.1 signed)
    | minus => exact Or.inr (Or.inl (List.mem_singleton.1 signed))
  · exact Or.inr (Or.inr (decimal c digit))

/-- A literal without a sign consists of digits. -/
theorem digits_iff (literal : Literal) :
    (∀ c ∈ literal.letters, c.isDigit = true) ↔ '+' ∉ literal.letters ∧ '-' ∉ literal.letters := by
  constructor
  · intro digits
    exact ⟨fun plus => absurd (digits _ plus) (by decide), fun minus => absurd (digits _ minus) (by decide)⟩
  · rintro ⟨plus, minus⟩ c letter
    rcases letter_cases letter with rfl | rfl | digit
    · exact absurd letter plus
    · exact absurd letter minus
    · exact digit

/-- Only a minus sign makes a value negative. -/
theorem value_nonneg {literal : Literal} (minus : '-' ∉ literal.letters) : 0 ≤ literal.value := by
  obtain ⟨sign, digits, nonempty, decimal⟩ := literal
  cases sign with
  | absent => exact Int.natCast_nonneg _
  | plus => exact Int.natCast_nonneg _
  | minus => exact absurd (List.mem_append_left digits (List.mem_singleton_self '-')) minus

theorem text_ne_empty (literal : Literal) : literal.text ≠ "" := by
  intro empty
  have letters : literal.letters = [] := by
    rw [← String.toList_ofList (l := literal.letters)]
    exact congrArg String.toList empty
  exact literal.nonempty (List.append_eq_nil_iff.1 letters).2

theorem not_isBlank_letter {literal : Literal} {c : Char} (letter : c ∈ literal.letters) :
    Text.isBlank c = false := by
  rcases letter_cases letter with rfl | rfl | digit
  · rfl
  · rfl
  · exact Text.not_isBlank_of_isDigit digit

/-- No blank stands before or after a literal, nor inside it. -/
theorem stripped_text (literal : Literal) : Text.stripped literal.text = literal.text := by
  have bare : ∀ c ∈ literal.letters, Text.isBlank c = false := fun c => not_isBlank_letter
  have front : literal.letters.dropWhile Text.isBlank = literal.letters :=
    List.dropWhile_eq_self_iff.2 fun _ => by simp [bare]
  have back : List.rdropWhile Text.isBlank literal.letters = literal.letters :=
    List.rdropWhile_eq_self_iff.2 fun _ => by simp [bare]
  rw [Text.stripped, text, String.toList_ofList, front, back]

end Literal

end EventSieve
