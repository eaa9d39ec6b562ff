import EventSieve.Proofs.Format
import EventSieve.Proofs.Span
import Mathlib.Data.List.DropRight
import Mathlib.Tactic.Ring

/-!
Spans and their texts. Numbers that are written one after the other, each with
its unit, are read as these numbers. The text of a span is such a row whose
ticks are those of the span, so a span is read back from its own text.
-/

namespace EventSieve

namespace Text

/-- The digits of a fraction and the zeros that were left out after them. -/
theorem fractionDigits_spec {width n : Nat} (wide : 0 < width) (less : n < 10 ^ width) :
    (∀ c ∈ fractionDigits width n, c.isDigit = true) ∧
      ∃ zeros, (fractionDigits width n).length + zeros = width ∧
        Nat.ofDigitChars 10 (fractionDigits width n) 0 * 10 ^ zeros = n := by
  let padded := List.replicate (width - (Nat.toDigits 10 n).length) '0' ++ Nat.toDigits 10 n
  have digits : fractionDigits width n = List.rdropWhile (· = '0') padded := by
    simp only [fractionDigits, paddedText, String.toList_ofList]
    rfl
  have length : padded.length = width := by
    have short := (Nat.length_toDigits_le_iff (b := 10) (by decide) wide).2 less
    simp only [padded, List.length_append, List.length_replicate]
    omega
  have value : Nat.ofDigitChars 10 padded 0 = n := by
    simp only [padded, Nat.ofDigitChars_append, Nat.ofDigitChars_replicate_zero, Nat.mul_zero,
      Nat.ofDigitChars_ten_toDigits]
  have decimal : ∀ c ∈ padded, c.isDigit = true := by
    intro c member
    rcases List.mem_append.1 member with zero | digit
    · rw [List.eq_of_mem_replicate zero]
      rfl
    · exact Nat.isDigit_of_mem_toDigits (by decide) (by decide) digit
  have zeros : List.rtakeWhile (· = '0') padded =
      List.replicate (List.rtakeWhile (· = '0') padded).length '0' := by
    refine List.eq_replicate_of_mem fun c member => ?_
    have zero := List.mem_rtakeWhile_imp member
    exact of_decide_eq_true zero
  have whole := @List.rdropWhile_append_rtakeWhile _ (fun c => decide (c = '0')) padded
  rw [digits]
  refine ⟨fun c member => decimal c ?_, (List.rtakeWhile (· = '0') padded).length, ?_, ?_⟩
  · rw [← whole]
    exact List.mem_append_left _ member
  · rw [← List.length_append, whole, length]
  · rw [zeros] at whole
    rw [Nat.mul_comm, ← Nat.ofDigitChars_replicate_zero, ← Nat.ofDigitChars_append, whole, value]

/-- Digits of a fraction after their point; without digits there is no point either. -/
def pointed : List Char → List Char
  | [] => []
  | c :: rest => '.' :: c :: rest

theorem fractionDigits_zero (width : Nat) : fractionDigits width 0 = [] := by
  have zeros : ∀ c ∈ (paddedText width 0).toList.reverse, decide (c = '0') = true := by
    intro c member
    simp only [paddedText, Nat.toDigits_zero, String.toList_ofList, List.mem_reverse, List.mem_append,
      List.mem_replicate, List.mem_singleton] at member
    exact decide_eq_true (member.elim And.right id)
  rw [fractionDigits, List.dropWhile_eq_nil_iff.2 zeros, List.reverse_nil]

theorem toList_fractionText {width n : Nat} (wide : 0 < width) (less : n < 10 ^ width) :
    (fractionText width n).toList = pointed (fractionDigits width n) := by
  by_cases zero : n = 0
  · simp [fractionText, zero, fractionDigits_zero, pointed]
  · cases digits : fractionDigits width n with
    | nil =>
      obtain ⟨_, zeros, _, value⟩ := fractionDigits_spec wide less
      rw [digits] at value
      exact absurd (value.symm.trans (Nat.zero_mul _)) zero
    | cons c rest => simp [fractionText, zero, digits, pointed]

end Text

namespace Span

/-! ## Written numbers -/

def TimeUnit.letters : TimeUnit → List Char
  | .nanosecond => ['n', 's']
  | .microsecond => ['u', 's']
  | .millisecond => ['m', 's']
  | .second => ['s']
  | .minute => ['m']
  | .hour => ['h']

/-- The digits of a number, with a point where it has a fraction. -/
def Quantity.letters (number : Quantity) : List Char :=
  Nat.toDigits 10 number.whole ++ Text.pointed number.fraction

/-- The number is one that reading can come to. -/
structure Quantity.Valid (number : Quantity) : Prop where
  whole_le : number.whole ≤ wholeLimit
  decimal : ∀ c ∈ number.fraction, c.isDigit = true

/-- No number goes on into the text. -/
def EndsNumber (rest : List Char) : Prop := ∀ c ∈ rest.head?, c.isDigit = false ∧ c ≠ '.'

theorem TimeUnit.endsNumber (unit : TimeUnit) (rest : List Char) : EndsNumber (unit.letters ++ rest) := by
  cases unit <;> simp [TimeUnit.letters, EndsNumber]

theorem span_digits {digits rest : List Char} (decimal : ∀ c ∈ digits, c.isDigit = true)
    (ends : ∀ c ∈ rest.head?, c.isDigit = false) :
    (digits ++ rest).takeWhile Char.isDigit = digits ∧ (digits ++ rest).dropWhile Char.isDigit = rest := by
  rw [List.takeWhile_append_of_pos decimal, List.dropWhile_append_of_pos decimal]
  cases rest with
  | nil => exact ⟨List.append_nil digits, rfl⟩
  | cons c more =>
    have stops : c.isDigit = false := ends c rfl
    simp [stops]

theorem Quantity.takeFraction_of_ends {rest : List Char} (ends : EndsNumber rest) : takeFraction rest = ([], rest) := by
  unfold takeFraction
  split
  · rename_i more
    exact absurd rfl (ends '.' rfl).2
  · rfl

theorem Quantity.take_letters {number : Quantity} (valid : number.Valid) {rest : List Char}
    (ends : EndsNumber rest) : take (number.letters ++ rest) = some (number, rest) := by
  have stops : ∀ c ∈ rest.head?, c.isDigit = false := fun c first => (ends c first).1
  have digit : ∀ c ∈ Nat.toDigits 10 number.whole, c.isDigit = true := fun c member =>
    Nat.isDigit_of_mem_toDigits (by decide) (by decide) member
  -- After the digits of the whole part stands a point, or what follows the number.
  have after : ∃ more, number.letters ++ rest = Nat.toDigits 10 number.whole ++ more ∧
      (∀ c ∈ more.head?, c.isDigit = false) ∧ takeFraction more = (number.fraction, rest) := by
    refine ⟨Text.pointed number.fraction ++ rest, List.append_assoc _ _ _, ?_⟩
    cases digits : number.fraction with
    | nil => exact ⟨stops, takeFraction_of_ends ends⟩
    | cons c further =>
      obtain ⟨taken, left⟩ := span_digits valid.decimal stops
      rw [digits] at taken left
      refine ⟨fun _ point => Option.some.inj point ▸ rfl, ?_⟩
      rw [Text.pointed, List.cons_append, takeFraction, taken, left]
  obtain ⟨more, split, point, fraction⟩ := after
  obtain ⟨taken, left⟩ := span_digits digit point
  rw [split, take, taken, left, fraction]
  simp [Nat.toDigits_ne_nil, Nat.not_lt.2 valid.whole_le, Nat.ofDigitChars_ten_toDigits]

theorem TimeUnit.take_letters (unit : TimeUnit) {rest : List Char} (ends : ∀ c ∈ rest.head?, c ≠ 's') :
    take (unit.letters ++ rest) = some (unit, rest) := by
  cases unit with
  | minute =>
    show take ('m' :: rest) = _
    cases rest with
    | nil => rfl
    | cons c more =>
      have other : c ≠ 's' := ends c rfl
      unfold take
      split <;> simp_all
  | nanosecond => rfl
  | microsecond => rfl
  | millisecond => rfl
  | second => rfl
  | hour => rfl

def termLetters (term : Quantity × TimeUnit) : List Char := term.1.letters ++ term.2.letters

theorem takeTerm_letters {term : Quantity × TimeUnit} (valid : term.1.Valid) {rest : List Char}
    (ends : ∀ c ∈ rest.head?, c ≠ 's') : takeTerm (termLetters term ++ rest) = some (term, rest) := by
  rw [termLetters, List.append_assoc, takeTerm, Quantity.take_letters valid (term.2.endsNumber rest)]
  simp only [TimeUnit.take_letters term.2 ends, Option.map_some]

/-- A row of numbers starts with a digit. -/
theorem exists_first_digit {terms : List (Quantity × TimeUnit)} (filled : terms ≠ []) :
    ∃ digit more, terms.flatMap termLetters = digit :: more ∧ digit.isDigit = true := by
  obtain ⟨term, rest, rfl⟩ := List.exists_cons_of_ne_nil filled
  obtain ⟨digit, more, digits⟩ := List.exists_cons_of_ne_nil (@Nat.toDigits_ne_nil term.1.whole 10)
  have first : digit ∈ Nat.toDigits 10 term.1.whole := digits ▸ List.mem_cons_self
  rw [List.flatMap_cons, termLetters, Quantity.letters, digits]
  exact ⟨digit, _, rfl, Nat.isDigit_of_mem_toDigits (by decide) (by decide) first⟩

theorem readTerms_of_last {text : List Char} {term : Quantity × TimeUnit} (taken : takeTerm text = some (term, [])) :
    readTerms text = some [term] := by
  rw [readTerms]
  split <;> simp_all

theorem readTerms_of_more {text : List Char} {term : Quantity × TimeUnit} {rest : List Char}
    (taken : takeTerm text = some (term, rest)) (more : rest ≠ []) :
    readTerms text = (readTerms rest).map (term :: ·) := by
  rw [readTerms]
  split <;> simp_all

/-- Numbers that are written one after the other are read as these. -/
theorem readTerms_letters {terms : List (Quantity × TimeUnit)} (filled : terms ≠ [])
    (valid : ∀ term ∈ terms, term.1.Valid) : readTerms (terms.flatMap termLetters) = some terms := by
  induction terms with
  | nil => exact absurd rfl filled
  | cons term rest ih =>
    obtain ⟨here, further⟩ := List.forall_mem_cons.1 valid
    rw [List.flatMap_cons]
    by_cases last : rest = []
    · rw [last]
      exact readTerms_of_last (takeTerm_letters here fun _ => nofun)
    · obtain ⟨digit, more, letters, isDigit⟩ := exists_first_digit last
      have ends : ∀ c ∈ (rest.flatMap termLetters).head?, c ≠ 's' := by
        rw [letters]
        rintro _ first rfl
        obtain rfl : digit = 's' := Option.some.inj first
        exact absurd isDigit (by decide)
      have further_filled : rest.flatMap termLetters ≠ [] := by
        rw [letters]
        exact List.cons_ne_nil digit more
      rw [readTerms_of_more (takeTerm_letters here ends) further_filled, ih last further]
      rfl

/-! ## The numbers in the text of a span -/

/-- A count of units of `10 ^ width` of what is counted, with its fraction. -/
def decimalTerm (width n : Nat) (unit : TimeUnit) : Quantity × TimeUnit :=
  (⟨n / 10 ^ width, Text.fractionDigits width (n % 10 ^ width)⟩, unit)

/-- A whole count of units, if there are any. -/
def wholeTerms (n : Nat) (unit : TimeUnit) : List (Quantity × TimeUnit) :=
  if n = 0 then [] else [(⟨n, []⟩, unit)]

def clockTerms (n : Nat) : List (Quantity × TimeUnit) :=
  wholeTerms (n / 360000000000000) .hour ++ wholeTerms (n % 360000000000000 / 6000000000000) .minute ++
    if n % 6000000000000 = 0 then [] else [decimalTerm 11 (n % 6000000000000) .second]

/-- The numbers that hundredths of a nanosecond are written as. -/
def sizeTerms (n : Nat) : List (Quantity × TimeUnit) :=
  if n < 100000 then [decimalTerm 2 n .nanosecond]
  else if n < 100000000 then [decimalTerm 5 n .microsecond]
  else if n < 100000000000 then [decimalTerm 8 n .millisecond]
  else clockTerms n

theorem letters_decimalTerm {width : Nat} (wide : 0 < width) (n : Nat) {unit : TimeUnit} {name : String}
    (named : name.toList = unit.letters) :
    (decimalText width n name).toList = termLetters (decimalTerm width n unit) := by
  have power : Nat.pow 10 width = 10 ^ width := rfl
  have less : n % 10 ^ width < 10 ^ width := Nat.mod_lt n (Nat.pow_pos (by decide))
  simp only [decimalText, power, Text.natText, String.toList_append, String.toList_ofList,
    Text.toList_fractionText wide less, named, decimalTerm, termLetters, Quantity.letters]

theorem letters_wholeTerms (n : Nat) {unit : TimeUnit} {name : String} (named : name.toList = unit.letters) :
    (if n = 0 then "" else Text.natText n ++ name).toList = (wholeTerms n unit).flatMap termLetters := by
  by_cases zero : n = 0
  · simp [zero, wholeTerms]
  · simp [zero, wholeTerms, Text.natText, termLetters, Quantity.letters, Text.pointed, named]

theorem letters_clockTerms (n : Nat) : (clockText n).toList = (clockTerms n).flatMap termLetters := by
  simp only [clockText, clockTerms, String.toList_append, List.flatMap_append,
    @letters_wholeTerms _ .hour "h" rfl, @letters_wholeTerms _ .minute "m" rfl]
  by_cases zero : n % 6000000000000 = 0
  · simp [zero]
  · simp only [if_neg zero, List.flatMap_cons, List.flatMap_nil, List.append_nil]
    rw [@letters_decimalTerm 11 (by decide) _ .second "s" rfl]

/-- The text of a length is that of its numbers. -/
theorem letters_sizeTerms {n : Nat} (nonzero : n ≠ 0) : (sizeText n).toList = (sizeTerms n).flatMap termLetters := by
  unfold sizeText sizeTerms
  rw [if_neg nonzero]
  split_ifs
  · simp [@letters_decimalTerm 2 (by decide) n .nanosecond "ns" rfl]
  · simp [@letters_decimalTerm 5 (by decide) n .microsecond "us" rfl]
  · simp [@letters_decimalTerm 8 (by decide) n .millisecond "ms" rfl]
  · exact letters_clockTerms n

/-! ## What the numbers come to -/

/-- A fraction that is whole ticks is cut to these: `zeros` more digits write it in hundredths of a
    nanosecond, of which a tick has 25. -/
theorem Quantity.fraction_ticks {number : Quantity} {unit : TimeUnit} {zeros ticks : Nat}
    (length : number.fraction.length ≤ fractionLimit)
    (size : (10 : Int) ^ (number.fraction.length + zeros) = 100 * unit.size)
    (value : Nat.ofDigitChars 10 number.fraction 0 * 10 ^ zeros = 25 * ticks) :
    (number.numerator : Int) * unit.ticks = ticks * number.denominator := by
  have digits : number.digits = number.fraction := List.take_of_length_le length
  have numerator : (number.numerator : Int) * 10 ^ zeros = 25 * ticks := by
    rw [Quantity.numerator, digits]
    exact_mod_cast value
  have denominator : (number.denominator : Int) * 10 ^ zeros = 100 * unit.size := by
    rw [Quantity.denominator, digits, ← size, pow_add]
    rfl
  have nonzero : (10 : Int) ^ zeros ≠ 0 := pow_ne_zero _ (by decide)
  have ofUnit : unit.ticks = 4 * unit.size := rfl
  refine mul_right_cancel₀ nonzero ?_
  calc (number.numerator * unit.ticks) * 10 ^ zeros
      = (number.numerator * 10 ^ zeros) * (4 * unit.size) := by rw [ofUnit]; ring
    _ = ticks * (100 * unit.size) := by rw [numerator]; ring
    _ = (ticks * number.denominator) * 10 ^ zeros := by rw [← denominator]; ring

/-- A count in hundredths of a nanosecond that is whole ticks comes to these. -/
theorem decimalTerm_ticks {width n : Nat} {unit : TimeUnit} (wide : 0 < width) (short : width ≤ 11)
    (size : (10 : Int) ^ width = 100 * unit.size) (whole : 25 ∣ n) :
    (decimalTerm width n unit).1.Fits unit ∧ 25 * (decimalTerm width n unit).1.ticks unit = n := by
  have power : ((10 ^ width : Nat) : Int) = 100 * unit.size := by
    rw [Nat.cast_pow]
    exact size
  have less : n % 10 ^ width < 10 ^ width := Nat.mod_lt n (Nat.pow_pos (by decide))
  have quarters : 25 ∣ 10 ^ width := Int.natCast_dvd_natCast.1 ⟨4 * unit.size, by rw [power]; ring⟩
  obtain ⟨ticks, fraction⟩ : 25 ∣ n % 10 ^ width := (Nat.dvd_mod_iff quarters).2 whole
  obtain ⟨_, zeros, length, value⟩ := Text.fractionDigits_spec wide less
  obtain ⟨number, named⟩ : ∃ number : Quantity, (decimalTerm width n unit).1 = number := ⟨_, rfl⟩
  have ofWhole : number.whole = n / 10 ^ width := by
    rw [← named, decimalTerm]
  have ofFraction : number.fraction = Text.fractionDigits width (n % 10 ^ width) := by
    rw [← named, decimalTerm]
  rw [← ofFraction] at length value
  have exactly : (number.numerator : Int) * unit.ticks = ticks * number.denominator :=
    Quantity.fraction_ticks (by unfold Quantity.fractionLimit; omega) (by rw [length]; exact size)
      (value.trans fraction)
  have positive := number.denominator_bounds.1
  have counted : number.ticks unit = (n / 10 ^ width : Nat) * unit.ticks + ticks := by
    rw [Quantity.ticks, exactly, Int.mul_tdiv_cancel _ (Int.ne_of_gt positive), ofWhole]
  have ofUnit : unit.ticks = 4 * unit.size := rfl
  rw [named]
  constructor
  · have most : 10 ^ width ≤ 10 ^ 11 := Nat.pow_le_pow_right (by decide) short
    have few : number.digits.length ≤ 11 := (List.length_take_le' _ _).trans (by omega)
    have denominator : number.denominator ≤ 10 ^ 11 := Nat.pow_le_pow_right (by decide) few
    have product : ticks * number.denominator ≤ 10 ^ 11 * 10 ^ 11 := Nat.mul_le_mul (by omega) denominator
    have room : ((10 ^ 11 * 10 ^ 11 : Nat) : Int) < endlessFrom := by decide
    rw [Quantity.Fits, exactly]
    exact Int.lt_of_le_of_lt (by exact_mod_cast product) room
  · have sum : ((10 ^ width : Nat) : Int) * (n / 10 ^ width : Nat) + (n % 10 ^ width : Nat) = n :=
      mod_cast Nat.div_add_mod n (10 ^ width)
    rw [power, fraction, Nat.cast_mul] at sum
    rw [counted, ofUnit, ← sum]
    push_cast
    ring

/-- The numbers can be read, and come to so many hundredths of a nanosecond. -/
structure Counts (terms : List (Quantity × TimeUnit)) (n : Nat) : Prop where
  valid : ∀ term ∈ terms, term.1.Valid
  fit : ∀ term ∈ terms, term.1.Fits term.2
  sum : 25 * (terms.map fun term => term.1.ticks term.2).sum = n

theorem Counts.append {first later : List (Quantity × TimeUnit)} {m n : Nat} (left : Counts first m)
    (right : Counts later n) : Counts (first ++ later) (m + n) where
  valid := List.forall_mem_append.2 ⟨left.valid, right.valid⟩
  fit := List.forall_mem_append.2 ⟨left.fit, right.fit⟩
  sum := by
    rw [List.map_append, List.sum_append, Int.mul_add, left.sum, right.sum]
    rfl

theorem counts_nil : Counts [] 0 := ⟨List.forall_mem_nil _, List.forall_mem_nil _, rfl⟩

theorem counts_singleton {term : Quantity × TimeUnit} {n : Nat} (valid : term.1.Valid) (fits : term.1.Fits term.2)
    (ticks : 25 * term.1.ticks term.2 = n) : Counts [term] n where
  valid := List.forall_mem_singleton.2 valid
  fit := List.forall_mem_singleton.2 fits
  sum := by rw [List.map_singleton, List.sum_singleton, ticks]

theorem counts_decimalTerm {width n : Nat} {unit : TimeUnit} (wide : 0 < width) (short : width ≤ 11)
    (size : (10 : Int) ^ width = 100 * unit.size) (whole : 25 ∣ n) (le : n / 10 ^ width ≤ wholeLimit) :
    Counts [decimalTerm width n unit] n := by
  have less : n % 10 ^ width < 10 ^ width := Nat.mod_lt n (Nat.pow_pos (by decide))
  obtain ⟨decimal, _⟩ := Text.fractionDigits_spec wide less
  obtain ⟨fits, ticks⟩ := decimalTerm_ticks wide short size whole
  have valid : (decimalTerm width n unit).1.Valid := by
    constructor
    · exact le
    · simpa only [decimalTerm] using decimal
  exact counts_singleton valid fits ticks

theorem counts_wholeTerms {n count : Nat} {unit : TimeUnit} (le : n ≤ wholeLimit)
    (size : 25 * unit.ticks = count) : Counts (wholeTerms n unit) (n * count) := by
  unfold wholeTerms
  by_cases zero : n = 0
  · rw [if_pos zero, zero, Nat.zero_mul]
    exact counts_nil
  · rw [if_neg zero]
    have nothing : ((Quantity.mk n []).numerator : Int) * unit.ticks = 0 := Int.zero_mul _
    have valid : (Quantity.mk n []).Valid := ⟨le, List.forall_mem_nil _⟩
    refine counts_singleton valid ?_ ?_
    · rw [Quantity.Fits, nothing]
      decide
    · rw [Quantity.ticks, nothing, Int.zero_tdiv, Int.add_zero, Nat.cast_mul, ← size]
      ring

theorem counts_clockTerms {n : Nat} (whole : 25 ∣ n) (le : n ≤ 922337203685477580800000000000) :
    Counts (clockTerms n) n := by
  have limit : wholeLimit = 9223372036854775807 := rfl
  have hours := @counts_wholeTerms (n / 360000000000000) 360000000000000 .hour (by omega) rfl
  have minutes := @counts_wholeTerms (n % 360000000000000 / 6000000000000) 6000000000000 .minute (by omega) rfl
  have seconds : Counts (if n % 6000000000000 = 0 then [] else [decimalTerm 11 (n % 6000000000000) .second])
      (n % 6000000000000) := by
    split_ifs with zero
    · rw [zero]
      exact counts_nil
    · exact counts_decimalTerm (by decide) (by decide) rfl (by omega) (by omega)
  have all := (hours.append minutes).append seconds
  have sum : n / 360000000000000 * 360000000000000 + n % 360000000000000 / 6000000000000 * 6000000000000 +
      n % 6000000000000 = n := by omega
  rw [sum] at all
  exact all

theorem counts_sizeTerms {n : Nat} (whole : 25 ∣ n) (le : n ≤ 922337203685477580800000000000) :
    Counts (sizeTerms n) n := by
  have limit : wholeLimit = 9223372036854775807 := rfl
  unfold sizeTerms
  split_ifs
  · exact counts_decimalTerm (by decide) (by decide) rfl whole (by omega)
  · exact counts_decimalTerm (by decide) (by decide) rfl whole (by omega)
  · exact counts_decimalTerm (by decide) (by decide) rfl whole (by omega)
  · exact counts_clockTerms whole le

/-! ## Reading back -/

theorem readSigned_of_terms {text : List Char} {terms : List (Quantity × TimeUnit)}
    (reading : readTerms text = some terms) (sign : Int) : readSigned sign text = some (total sign terms) := by
  have notZero : text ≠ ['0'] := by
    rintro rfl
    have noTerms : readTerms ['0'] = none := by decide +kernel
    rw [noTerms] at reading
    cases reading
  have notEndless : text ≠ ['i', 'n', 'f'] := by
    rintro rfl
    have noTerms : readTerms ['i', 'n', 'f'] = none := by decide +kernel
    rw [noTerms] at reading
    cases reading
  rw [readSigned, if_neg notZero, if_neg notEndless, reading]
  rfl

/-- After its sign the text of a span is read as the span again. -/
theorem readSigned_sizeText {n sign : Int} (inRange : (finite n).InRange) (nonzero : n ≠ 0) (isSign : IsSign sign)
    (directed : sign * n.natAbs = n) :
    readSigned sign (sizeText (25 * n.natAbs)).toList = some (.finite n) ∧
      ∃ digit more, (sizeText (25 * n.natAbs)).toList = digit :: more ∧ digit.isDigit = true := by
  have limit : endlessFrom = 36893488147419103232000000000 := rfl
  obtain ⟨low, high⟩ := inRange
  have counts : Counts (sizeTerms (25 * n.natAbs)) (25 * n.natAbs) :=
    counts_sizeTerms (Nat.dvd_mul_right 25 n.natAbs) (by omega)
  have sum := counts.sum
  rw [Nat.cast_mul] at sum
  have ticks : ((sizeTerms (25 * n.natAbs)).map fun term => term.1.ticks term.2).sum = n.natAbs :=
    Int.eq_of_mul_eq_mul_left (by decide) sum
  have filled : sizeTerms (25 * n.natAbs) ≠ [] := by
    intro nothing
    rw [nothing, List.map_nil, List.sum_nil] at ticks
    omega
  rw [letters_sizeTerms (by omega)]
  refine ⟨?_, exists_first_digit filled⟩
  rw [readSigned_of_terms (readTerms_letters filled counts.valid), total_eq isSign counts.fit, ticks, directed,
    ofTicks_eq ⟨low, high⟩]

theorem read_of_digit {text : String} {digit : Char} {more : List Char} (letters : text.toList = digit :: more)
    (isDigit : digit.isDigit = true) : read text = readSigned 1 text.toList := by
  unfold read
  rw [letters]
  split
  · rename_i same
    obtain ⟨rfl, _⟩ := List.cons.inj same
    exact absurd isDigit (by decide)
  · rename_i same
    obtain ⟨rfl, _⟩ := List.cons.inj same
    exact absurd isDigit (by decide)
  · rfl

/-- A span in range is read back from its text. -/
theorem read_text {span : Span} (inRange : span.InRange) : read span.text = some span := by
  cases span with
  | finite n =>
    by_cases zero : n = 0
    · rw [zero]
      decide
    · by_cases negative : n < 0
      · obtain ⟨reading, _⟩ := readSigned_sizeText inRange zero (Or.inr rfl : IsSign (-1)) (by omega)
        have letters : (text (.finite n)).toList = '-' :: (sizeText (25 * n.natAbs)).toList := by
          rw [text, if_pos negative, String.toList_append]
          rfl
        rw [read, letters]
        exact reading
      · obtain ⟨reading, digit, more, letters, isDigit⟩ := readSigned_sizeText inRange zero (Or.inl rfl) (by omega)
        have plain : text (.finite n) = sizeText (25 * n.natAbs) := by
          rw [text, if_neg negative, String.empty_append]
        rw [plain, read_of_digit letters isDigit]
        exact reading
  | endless => decide
  | minusEndless => decide

end Span

/-- The settings that are read from an object are described by a text of their span. -/
theorem Config.read_aroundSpan_text {json : Json} {config : Config} (decoded : decode json = .ok config) :
    Span.read config.aroundSpan.text = some config.aroundSpan := by
  obtain ⟨text, _, described⟩ := (decode_eq_ok_iff.1 decoded).aroundSpan
  rcases described with ⟨_, standard⟩ | ⟨_, reading, _⟩
  · rw [standard]
    exact Span.read_text ⟨by decide, by decide⟩
  · exact Span.read_text (Span.read_inRange reading)

end EventSieve
