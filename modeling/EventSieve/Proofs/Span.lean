import EventSieve.Time.Span
import Mathlib.Algebra.Order.Ring.Int
import Mathlib.Tactic.SplitIfs

/-!
Sums of spans. The numbers of a written span have one sign, so sums of them go
one way and leave the range once at most: their sum is that of the exact ticks,
cut off at the end. A fraction below a tick is nothing, and a text stands for a
negative span only when it starts with a minus sign and some number in it comes
to a tick.
-/

namespace EventSieve.Span

theorem endlessFrom_pos : 0 < endlessFrom := by decide

/-- The span is one that sums can come to. -/
def InRange : Span → Prop
  | .finite n => -endlessFrom ≤ n ∧ n < endlessFrom
  | .endless => True
  | .minusEndless => True

theorem zero_inRange : (finite 0).InRange := ⟨by decide, by decide⟩

theorem ofTicks_inRange (n : Int) : (ofTicks n).InRange := by
  unfold ofTicks
  split_ifs with high low
  · trivial
  · trivial
  · exact ⟨by omega, by omega⟩

theorem ofTicks_eq {n : Int} (inRange : (finite n).InRange) : ofTicks n = .finite n := by
  obtain ⟨low, high⟩ := inRange
  rw [ofTicks, if_neg (by omega), if_neg (by omega)]

theorem ofTicks_of_le {n : Int} (high : endlessFrom ≤ n) : ofTicks n = .endless := if_pos high

theorem ofTicks_of_lt {n : Int} (low : n < -endlessFrom) : ofTicks n = .minusEndless := by
  have positive := endlessFrom_pos
  rw [ofTicks, if_neg (by omega), if_pos low]

theorem add_inRange {first second : Span} (left : first.InRange) (right : second.InRange) :
    (first.add second).InRange := by
  cases first with
  | finite m =>
    cases second with
    | finite n => exact ofTicks_inRange (m + n)
    | endless => exact right
    | minusEndless => exact right
  | endless => exact left
  | minusEndless => exact left

theorem part_inRange {span : Span} (inRange : span.InRange) (count : Nat) : (span.part count).InRange := by
  cases span with
  | finite n =>
    obtain ⟨low, high⟩ := inRange
    have smaller : (n.tdiv count).natAbs ≤ n.natAbs := Int.natAbs_tdiv_le_natAbs n count
    have upward : 0 ≤ n → 0 ≤ n.tdiv count := fun sign => Int.tdiv_nonneg sign (Int.natCast_nonneg count)
    have downward : 0 ≤ -n → 0 ≤ -n.tdiv count := fun sign =>
      Int.neg_tdiv n count ▸ Int.tdiv_nonneg sign (Int.natCast_nonneg count)
    constructor <;> omega
  | endless => trivial
  | minusEndless => trivial

/-- What is true of zero and of every number, and kept by sums, is true of a sum of numbers. -/
theorem total_of_spans {p : Span → Prop} (zero : p (.finite 0))
    (keeps : ∀ first second : Span, p first → p second → p (first.add second)) {sign : Int}
    {terms : List (Quantity × TimeUnit)} (each : ∀ term ∈ terms, ∀ span ∈ term.1.spans sign term.2, p span) :
    p (total sign terms) := by
  refine List.foldlRecOn _ add zero fun sum sumHas span member => keeps sum span sumHas ?_
  obtain ⟨term, known, ofTerm⟩ := List.mem_flatMap.1 member
  exact each term known span ofTerm

theorem total_inRange (sign : Int) (terms : List (Quantity × TimeUnit)) : (total sign terms).InRange := by
  refine total_of_spans zero_inRange (fun _ _ => add_inRange) fun term _ span member => ?_
  simp only [Quantity.spans, List.mem_cons, List.not_mem_nil, or_false] at member
  rcases member with rfl | rfl
  · exact ofTicks_inRange _
  · exact part_inRange (ofTicks_inRange _) _

theorem readSigned_inRange {sign : Int} {text : List Char} {span : Span}
    (reading : readSigned sign text = some span) : span.InRange := by
  unfold readSigned at reading
  split_ifs at reading with zero endless minus
  · obtain rfl := Option.some.inj reading
    exact zero_inRange
  · obtain rfl := Option.some.inj reading
    trivial
  · obtain rfl := Option.some.inj reading
    trivial
  · obtain ⟨terms, _, rfl⟩ := Option.map_eq_some_iff.1 reading
    exact total_inRange sign terms

/-- Whatever is read is in range. -/
theorem read_inRange {text : String} {span : Span} (reading : read text = some span) : span.InRange := by
  unfold read at reading
  split at reading
  · exact readSigned_inRange reading
  · exact readSigned_inRange reading
  · exact readSigned_inRange reading

/-! ## Sums of one sign -/

/-- What may stand before a number. -/
def IsSign (sign : Int) : Prop := sign = 1 ∨ sign = -1

/-- Sums of one sign leave the range once at most. -/
theorem add_ofTicks {sign m n : Int} (isSign : IsSign sign) (first : 0 ≤ m) (second : 0 ≤ n) :
    (ofTicks (sign * m)).add (ofTicks (sign * n)) = ofTicks (sign * (m + n)) := by
  have positive := endlessFrom_pos
  rcases isSign with rfl | rfl
  · rw [Int.one_mul, Int.one_mul, Int.one_mul]
    by_cases high : endlessFrom ≤ m
    · rw [ofTicks_of_le high, ofTicks_of_le (n := m + n) (by omega)]
      rfl
    · rw [ofTicks_eq (n := m) ⟨by omega, by omega⟩]
      by_cases also : endlessFrom ≤ n
      · rw [ofTicks_of_le also, ofTicks_of_le (n := m + n) (by omega)]
        rfl
      · rw [ofTicks_eq (n := n) ⟨by omega, by omega⟩]
        rfl
  · rw [Int.neg_one_mul, Int.neg_one_mul, Int.neg_one_mul]
    by_cases low : -m < -endlessFrom
    · rw [ofTicks_of_lt low, ofTicks_of_lt (n := -(m + n)) (by omega)]
      rfl
    · rw [ofTicks_eq (n := -m) ⟨by omega, by omega⟩]
      by_cases also : -n < -endlessFrom
      · rw [ofTicks_of_lt also, ofTicks_of_lt (n := -(m + n)) (by omega)]
        rfl
      · rw [ofTicks_eq (n := -n) ⟨by omega, by omega⟩, Int.neg_add]
        rfl

theorem part_ofTicks {sign n : Int} (isSign : IsSign sign) (first : 0 ≤ n) (last : n < endlessFrom) (count : Nat) :
    (ofTicks (sign * n)).part count = ofTicks (sign * n.tdiv count) := by
  have cut : (sign * n).tdiv count = sign * n.tdiv count := by
    rcases isSign with rfl | rfl
    · rw [Int.one_mul, Int.one_mul]
    · rw [Int.neg_one_mul, Int.neg_one_mul, Int.neg_tdiv]
  have inRange : (finite (sign * n)).InRange := by
    rcases isSign with rfl | rfl <;> constructor <;> omega
  have smaller : (finite (sign * n.tdiv count)).InRange := cut ▸ part_inRange inRange count
  rw [ofTicks_eq inRange, ofTicks_eq smaller, ← cut]
  rfl

theorem TimeUnit.ticks_pos (unit : TimeUnit) : 0 < unit.ticks := by
  cases unit <;> decide

theorem TimeUnit.mul_ticks_nonneg (unit : TimeUnit) (count : Nat) : 0 ≤ count * unit.ticks :=
  Int.mul_nonneg (Int.natCast_nonneg count) (Int.le_of_lt unit.ticks_pos)

/-- Exact ticks of a number without its sign, those of the fraction cut to whole ones. -/
def Quantity.ticks (number : Quantity) (unit : TimeUnit) : Int :=
  number.whole * unit.ticks + (number.numerator * unit.ticks).tdiv number.denominator

/-- The numerator is in range before it is divided. -/
def Quantity.Fits (number : Quantity) (unit : TimeUnit) : Prop := number.numerator * unit.ticks < endlessFrom

theorem foldl_add_spans {sign n : Int} (isSign : IsSign sign) (start : 0 ≤ n) {number : Quantity} {unit : TimeUnit}
    (fits : number.Fits unit) :
    (number.spans sign unit).foldl add (ofTicks (sign * n)) = ofTicks (sign * (n + number.ticks unit)) ∧
      0 ≤ number.ticks unit := by
  have whole := unit.mul_ticks_nonneg number.whole
  have numerator := unit.mul_ticks_nonneg number.numerator
  have fraction : 0 ≤ (number.numerator * unit.ticks).tdiv number.denominator :=
    Int.tdiv_nonneg numerator (Int.natCast_nonneg _)
  refine ⟨?_, Int.add_nonneg whole fraction⟩
  simp only [Quantity.spans, List.foldl_cons, List.foldl_nil]
  rw [part_ofTicks isSign numerator fits, add_ofTicks isSign start whole,
    add_ofTicks isSign (Int.add_nonneg start whole) fraction, Int.add_assoc]
  rfl

/-- A sum of numbers of one sign is that of their ticks, cut off where it is out of range. -/
theorem total_eq {sign : Int} (isSign : IsSign sign) {terms : List (Quantity × TimeUnit)}
    (fit : ∀ term ∈ terms, term.1.Fits term.2) :
    total sign terms = ofTicks (sign * (terms.map fun term => term.1.ticks term.2).sum) := by
  have from_start : ∀ n : Int, 0 ≤ n →
      (terms.flatMap fun term => term.1.spans sign term.2).foldl add (ofTicks (sign * n)) =
        ofTicks (sign * (n + (terms.map fun term => term.1.ticks term.2).sum)) := by
    induction terms with
    | nil => simp
    | cons term rest ih =>
      obtain ⟨here, further⟩ := List.forall_mem_cons.1 fit
      intro n start
      obtain ⟨sum, size⟩ := foldl_add_spans isSign start here
      rw [List.flatMap_cons, List.foldl_append, sum, ih further _ (Int.add_nonneg start size), List.map_cons,
        List.sum_cons, Int.add_assoc]
  have zero : ofTicks (sign * 0) = .finite 0 := by rw [Int.mul_zero]; rfl
  rw [total, ← zero, from_start 0 (Int.le_refl 0), Int.zero_add]

/-! ## Negative spans -/

/-- The number comes to a tick at least, in its whole part or in its fraction. -/
def Quantity.ReachesTick (number : Quantity) (unit : TimeUnit) : Prop :=
  0 < number.whole ∨ (number.denominator : Int) ≤ number.numerator * unit.ticks

def NotPositive : Span → Prop
  | .finite n => n ≤ 0
  | .endless => False
  | .minusEndless => True

theorem isNegative_ofTicks {n : Int} : (ofTicks n).isNegative = true ↔ n < 0 := by
  have positive := endlessFrom_pos
  unfold ofTicks
  split_ifs with high low
  · exact iff_of_false Bool.false_ne_true (by omega)
  · exact iff_of_true rfl (by omega)
  · exact decide_eq_true_iff

theorem notPositive_ofTicks {n : Int} (nonpos : n ≤ 0) : (ofTicks n).NotPositive := by
  have positive := endlessFrom_pos
  unfold ofTicks
  split_ifs with high low
  · omega
  · trivial
  · exact nonpos

theorem Quantity.denominator_bounds (number : Quantity) :
    0 < (number.denominator : Int) ∧ (number.denominator : Int) < endlessFrom := by
  have short : number.digits.length ≤ fractionLimit := List.length_take_le _ _
  have most : number.denominator ≤ 10 ^ fractionLimit := Nat.pow_le_pow_right (by decide) short
  have positive : 0 < number.denominator := Nat.pow_pos (by decide)
  have room : ((10 ^ fractionLimit : Nat) : Int) < endlessFrom := by decide
  constructor <;> omega

/-- A sum of spans that are not positive is negative when one of them is. -/
theorem add_notPositive {first second : Span} (left : first.NotPositive) (right : second.NotPositive) :
    (first.add second).NotPositive ∧
      ((first.add second).isNegative = true ↔ first.isNegative = true ∨ second.isNegative = true) := by
  cases first with
  | finite m =>
    cases second with
    | finite n =>
      have m_nonpos : m ≤ 0 := left
      have n_nonpos : n ≤ 0 := right
      refine ⟨notPositive_ofTicks (by omega), isNegative_ofTicks.trans ?_⟩
      simp only [isNegative, decide_eq_true_eq]
      omega
    | endless => exact right.elim
    | minusEndless => exact ⟨trivial, iff_of_true rfl (Or.inr rfl)⟩
  | endless => exact left.elim
  | minusEndless => exact ⟨trivial, iff_of_true rfl (Or.inl rfl)⟩

theorem foldl_add_notPositive {spans : List Span} (each : ∀ span ∈ spans, span.NotPositive) {start : Span}
    (first : start.NotPositive) :
    (spans.foldl add start).isNegative = true ↔
      start.isNegative = true ∨ ∃ span ∈ spans, span.isNegative = true := by
  induction spans generalizing start with
  | nil => simp
  | cons span rest ih =>
    obtain ⟨here, further⟩ := List.forall_mem_cons.1 each
    obtain ⟨sum, negative⟩ := add_notPositive first here
    simp only [List.foldl_cons, ih further sum, negative, List.mem_cons, exists_eq_or_imp, or_assoc]

/-- Below zero a part is negative where there is a tick for each of as many parts. -/
theorem part_minus {n : Int} (first : 0 ≤ n) {count : Nat} (positive : 0 < (count : Int))
    (room : (count : Int) < endlessFrom) :
    ((ofTicks (-n)).part count).NotPositive ∧
      (((ofTicks (-n)).part count).isNegative = true ↔ (count : Int) ≤ n) := by
  by_cases low : -n < -endlessFrom
  · rw [ofTicks_of_lt low]
    exact ⟨trivial, iff_of_true rfl (by omega)⟩
  · have cut : (-n).tdiv count = -(n / count) := by
      rw [Int.neg_tdiv, Int.tdiv_eq_ediv_of_nonneg first]
    have reached : 0 < n / count ↔ (count : Int) ≤ n := by
      rw [Int.lt_iff_add_one_le, Int.le_ediv_iff_mul_le positive, Int.zero_add, Int.one_mul]
    have quotient : 0 ≤ n / count := Int.ediv_nonneg first (Int.le_of_lt positive)
    rw [ofTicks_eq (n := -n) ⟨by omega, by omega⟩]
    simp only [part, cut, NotPositive, isNegative, decide_eq_true_eq, ← reached]
    constructor <;> omega

theorem spans_minus (number : Quantity) (unit : TimeUnit) :
    (∀ span ∈ number.spans (-1) unit, span.NotPositive) ∧
      ((∃ span ∈ number.spans (-1) unit, span.isNegative = true) ↔ number.ReachesTick unit) := by
  have whole := unit.mul_ticks_nonneg number.whole
  have numerator := unit.mul_ticks_nonneg number.numerator
  obtain ⟨positive, room⟩ := number.denominator_bounds
  obtain ⟨below, reached⟩ := part_minus numerator positive room
  have counted : -(number.whole * unit.ticks) < 0 ↔ 0 < number.whole := by
    rw [Int.neg_lt_zero_iff, mul_pos_iff_of_pos_right unit.ticks_pos, Int.natCast_pos]
  constructor
  · intro span member
    simp only [Quantity.spans, Int.neg_one_mul, List.mem_cons, List.not_mem_nil, or_false] at member
    rcases member with rfl | rfl
    · exact notPositive_ofTicks (by omega)
    · exact below
  · simp only [Quantity.spans, Int.neg_one_mul, List.mem_cons, List.not_mem_nil, or_false, exists_eq_or_imp,
      exists_eq_left, isNegative_ofTicks, reached, counted, Quantity.ReachesTick]

theorem isNegative_total_minus {terms : List (Quantity × TimeUnit)} :
    (total (-1) terms).isNegative = true ↔ ∃ term ∈ terms, term.1.ReachesTick term.2 := by
  have each : ∀ span ∈ terms.flatMap fun term => term.1.spans (-1) term.2, span.NotPositive := by
    intro span member
    obtain ⟨term, _, ofTerm⟩ := List.mem_flatMap.1 member
    exact (spans_minus term.1 term.2).1 span ofTerm
  have zero : (finite 0).NotPositive := Int.le_refl 0
  rw [total, foldl_add_notPositive each zero]
  simp only [List.mem_flatMap]
  constructor
  · rintro (zero | ⟨span, ⟨term, member, ofTerm⟩, negative⟩)
    · cases zero
    · exact ⟨term, member, (spans_minus term.1 term.2).2.1 ⟨span, ofTerm, negative⟩⟩
  · rintro ⟨term, member, reaches⟩
    obtain ⟨span, ofTerm, negative⟩ := (spans_minus term.1 term.2).2.2 reaches
    exact Or.inr ⟨span, ⟨term, member, ofTerm⟩, negative⟩

theorem add_isNegative {first second : Span} (left : first.isNegative = false) (right : second.isNegative = false) :
    (first.add second).isNegative = false := by
  cases first with
  | finite m =>
    cases second with
    | finite n =>
      have m_nonneg : ¬ m < 0 := of_decide_eq_false left
      have n_nonneg : ¬ n < 0 := of_decide_eq_false right
      refine Bool.eq_false_iff.2 (mt isNegative_ofTicks.1 ?_)
      omega
    | endless => rfl
    | minusEndless => cases right
  | endless => rfl
  | minusEndless => cases left

theorem spans_plus (number : Quantity) (unit : TimeUnit) :
    ∀ span ∈ number.spans 1 unit, span.isNegative = false := by
  have whole := unit.mul_ticks_nonneg number.whole
  have numerator := unit.mul_ticks_nonneg number.numerator
  intro span member
  simp only [Quantity.spans, Int.one_mul, List.mem_cons, List.not_mem_nil, or_false] at member
  rcases member with rfl | rfl
  · exact Bool.eq_false_iff.2 (mt isNegative_ofTicks.1 (by omega))
  · by_cases high : endlessFrom ≤ number.numerator * unit.ticks
    · rw [ofTicks_of_le high]
      rfl
    · have positive := endlessFrom_pos
      have quotient := Int.tdiv_nonneg numerator (Int.natCast_nonneg number.denominator)
      rw [ofTicks_eq ⟨by omega, by omega⟩]
      exact decide_eq_false (by omega)

theorem isNegative_total_plus (terms : List (Quantity × TimeUnit)) : (total 1 terms).isNegative = false :=
  total_of_spans (p := fun span => span.isNegative = false) rfl (fun _ _ => add_isNegative)
    fun term _ => spans_plus term.1 term.2

theorem not_exists_negative_readSigned_plus (text : List Char) :
    ¬ ∃ span ∈ readSigned 1 text, span.isNegative = true := by
  by_cases zero : text = ['0']
  · simp [readSigned, zero, isNegative]
  · by_cases endless : text = ['i', 'n', 'f']
    · simp [readSigned, endless, isNegative]
    · simp [readSigned, zero, endless, isNegative_total_plus]

theorem exists_negative_readSigned_minus {text : List Char} :
    (∃ span ∈ readSigned (-1) text, span.isNegative = true) ↔
      text = ['i', 'n', 'f'] ∨
        ∃ terms, readTerms text = some terms ∧ ∃ term ∈ terms, term.1.ReachesTick term.2 := by
  by_cases zero : text = ['0']
  · have noTerms : readTerms ['0'] = none := by decide +kernel
    simp [readSigned, zero, noTerms, isNegative]
  · by_cases endless : text = ['i', 'n', 'f']
    · simp [readSigned, endless, isNegative]
    · simp [readSigned, zero, endless, isNegative_total_minus]

/-- A text stands for a negative span when it starts with a minus sign, and is endless after it or has a
    number that comes to a tick. -/
theorem exists_negative_iff {text : String} :
    (∃ span ∈ read text, span.isNegative = true) ↔
      ∃ rest, text.toList = '-' :: rest ∧
        (rest = ['i', 'n', 'f'] ∨
          ∃ terms, readTerms rest = some terms ∧ ∃ term ∈ terms, term.1.ReachesTick term.2) := by
  unfold read
  split
  · rename_i rest letters
    rw [exists_negative_readSigned_minus, letters]
    simp only [List.cons.injEq, true_and, exists_eq_left']
  · rename_i rest letters
    refine iff_of_false (not_exists_negative_readSigned_plus rest) ?_
    rintro ⟨rest, minus, _⟩
    rw [letters] at minus
    cases minus
  · rename_i unsigned _
    refine iff_of_false (not_exists_negative_readSigned_plus _) ?_
    rintro ⟨rest, minus, _⟩
    exact unsigned rest minus

-- Half a nanosecond is two ticks, a fifth is none, and each number is cut by itself.
example : read "-0.5ns" = some (.finite (-2)) ∧ read "-0.2ns" = some (.finite 0) ∧
    read "0.4ns0.4ns0.4ns" = some (.finite 3) := by
  decide +kernel

end EventSieve.Span
