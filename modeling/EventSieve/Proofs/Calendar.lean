import EventSieve.Time.Date
import Mathlib.Tactic.IntervalCases
import Mathlib.Tactic.SplitIfs

/-!
The calendar behind the count of days. Years have a leap day by the Gregorian
rule, months have their usual lengths, and one day follows another (`next`). The
count of days goes up by one from each day to the next, and taking a count to
its day is inverse to taking a day to its count, for every year and every
number of days, before 1970 as after it.
-/

namespace EventSieve.Date

/-! ## Years -/

/-- Each fourth year has a leap day, but of the hundredth ones only each fourth. -/
def IsLeap (year : Int) : Prop := year % 4 = 0 ∧ (year % 100 ≠ 0 ∨ year % 400 = 0)

instance (year : Int) : Decidable (IsLeap year) := inferInstanceAs (Decidable (_ ∧ _))

/-- A year from March on is as long as its last month, the next February, makes it. -/
theorem yearStart_succ (year : Int) :
    yearStart (year + 1) = yearStart year + if IsLeap (year + 1) then 366 else 365 := by
  by_cases leap : IsLeap (year + 1)
  · rw [if_pos leap]
    unfold IsLeap at leap
    unfold yearStart
    omega
  · rw [if_neg leap]
    unfold IsLeap at leap
    unfold yearStart
    omega

theorem yearStart_mono {year later : Int} (le : year ≤ later) : yearStart year ≤ yearStart later := by
  unfold yearStart
  omega

/-- The days before a year, from its period, its century, its group of four years and its place there. -/
theorem yearStart_places {period century group place : Int} (centuries : 0 ≤ century ∧ century ≤ 3)
    (groups : 0 ≤ group ∧ group ≤ 24) (places : 0 ≤ place ∧ place ≤ 3) :
    yearStart (400 * period + 100 * century + 4 * group + place) =
      146097 * period + 36524 * century + 1461 * group + 365 * place := by
  unfold yearStart
  omega

/-- A day lies in a year at most 365 days after its start, and that many only in one that ends a
    group of four, and not a century unless it ends a period too. -/
theorem exists_places (n : Int) :
    ∃ period century group place inYear,
      yearOf n = 400 * period + 100 * century + 4 * group + place ∧
      (0 ≤ century ∧ century ≤ 3) ∧ (0 ≤ group ∧ group ≤ 24) ∧ (0 ≤ place ∧ place ≤ 3) ∧
      n = 146097 * period + 36524 * century + 1461 * group + 365 * place + inYear ∧
      (0 ≤ inYear ∧ inYear ≤ 365) ∧ (inYear = 365 → place = 3 ∧ (group = 24 → century = 3)) := by
  let century := min (n % 146097 / 36524) 3
  let inCentury := n % 146097 - 36524 * century
  let place := min (inCentury % 1461 / 365) 3
  refine ⟨n / 146097, century, inCentury / 1461, place, inCentury % 1461 - 365 * place, rfl, ?_, ?_, ?_, ?_, ?_, ?_⟩
  all_goals omega

/-- The year that a day falls in has started, and the next one has not. -/
theorem yearOf_spec (n : Int) : yearStart (yearOf n) ≤ n ∧ n < yearStart (yearOf n + 1) := by
  obtain ⟨period, century, group, place, inYear, year, centuries, groups, places, count, within, last⟩ :=
    exists_places n
  rw [yearStart_succ, year, yearStart_places centuries groups places]
  refine ⟨by omega, ?_⟩
  by_cases leap : IsLeap (400 * period + 100 * century + 4 * group + place + 1)
  · rw [if_pos leap]
    omega
  · rw [if_neg leap]
    unfold IsLeap at leap
    omega

theorem yearOf_eq {year n : Int} (started : yearStart year ≤ n) (ends : n < yearStart (year + 1)) :
    yearOf n = year := by
  obtain ⟨low, high⟩ := yearOf_spec n
  rcases Int.lt_trichotomy (yearOf n) year with less | same | more
  · have ended := yearStart_mono (Int.add_one_le_of_lt less)
    omega
  · exact same
  · have ended := yearStart_mono (Int.add_one_le_of_lt more)
    omega

/-! ## Months -/

/-- The count of days of a month. -/
def monthLength (year month : Int) : Int :=
  if month = 2 then if IsLeap year then 29 else 28
  else if month = 4 ∨ month = 6 ∨ month = 9 ∨ month = 11 then 30
  else 31

theorem monthLength_pos (year month : Int) : 1 ≤ monthLength year month := by
  unfold monthLength
  split_ifs <;> omega

/-- The year, from March on, that a month lies in. -/
def marchYear (year month : Int) : Int := if 3 ≤ month then year else year - 1

/-- The number of a month in a year from March on. -/
def marchMonth (month : Int) : Int := if 3 ≤ month then month - 3 else month + 9

/-- The month that a month number from March on stands for, and the year that it lies in. -/
theorem exists_month (year : Int) {m : Int} (low : 0 ≤ m) (high : m ≤ 11) :
    ∃ civilYear month, (if m < 10 then year else year + 1) = civilYear ∧
      (if m < 10 then m + 3 else m - 9) = month ∧ (1 ≤ month ∧ month ≤ 12) ∧
      marchYear civilYear month = year ∧ marchMonth month = m := by
  refine ⟨_, _, rfl, rfl, ?_⟩
  unfold marchYear marchMonth
  omega

theorem dayNumber_mk (year month day : Int) :
    (Date.mk year month day).dayNumber =
      yearStart (marchYear year month) + monthStart (marchMonth month) + (day - 1) - epochDay := rfl

theorem monthOf_spec (inYear : Int) :
    monthStart (monthOf inYear) ≤ inYear ∧ inYear < monthStart (monthOf inYear + 1) := by
  unfold monthOf monthStart
  omega

theorem monthOf_eq {m inYear : Int} (started : monthStart m ≤ inYear) (ends : inYear < monthStart (m + 1)) :
    monthOf inYear = m := by
  unfold monthOf monthStart at *
  omega

/-- A month ends where the next one starts, and February where the next year from March on does. -/
theorem month_ends (year : Int) {month : Int} (low : 1 ≤ month) (high : month ≤ 12) :
    yearStart (marchYear year month) + monthStart (marchMonth month) + monthLength year month =
      if month = 2 then yearStart (marchYear year month + 1)
      else yearStart (marchYear year month) + monthStart (marchMonth month + 1) := by
  by_cases february : month = 2
  · subst february
    show yearStart (year - 1) + 337 + (if IsLeap year then 29 else 28) = yearStart (year - 1 + 1)
    rw [yearStart_succ, Int.sub_add_cancel]
    split <;> omega
  · rw [if_neg february, Int.add_assoc]
    congr 1
    unfold marchMonth monthStart
    interval_cases month <;> first | rfl | exact absurd rfl february

/-! ## Days -/

/-- There is such a month, and it has such a day. -/
structure OnCalendar (date : Date) : Prop where
  month : 1 ≤ date.month ∧ date.month ≤ 12
  day : 1 ≤ date.day ∧ date.day ≤ monthLength date.year date.month

/-- The day after a day. -/
def next (date : Date) : Date :=
  if date.day < monthLength date.year date.month then { date with day := date.day + 1 }
  else if date.month < 12 then { date with month := date.month + 1, day := 1 }
  else ⟨date.year + 1, 1, 1⟩

/-- From the first day of a month to that of the next one the count goes up by the month's length. -/
theorem dayNumber_nextMonth (year : Int) {month : Int} (low : 1 ≤ month) (high : month ≤ 12) :
    (if month < 12 then Date.mk year (month + 1) 1 else ⟨year + 1, 1, 1⟩).dayNumber =
      (Date.mk year month 1).dayNumber + monthLength year month := by
  have ends := month_ends year low high
  by_cases february : month = 2
  · subst february
    have lastYear : marchYear year 2 + 1 = year := Int.sub_add_cancel year 1
    rw [if_pos rfl, lastYear] at ends
    show yearStart year + 0 + (1 - 1) - epochDay = _
    rw [dayNumber_mk]
    omega
  · rw [if_neg february] at ends
    by_cases december : month < 12
    · have sameYear : marchYear year (month + 1) = marchYear year month := by
        unfold marchYear
        omega
      have nextMonth : marchMonth (month + 1) = marchMonth month + 1 := by
        unfold marchMonth
        omega
      rw [if_pos december, dayNumber_mk, dayNumber_mk, sameYear, nextMonth]
      omega
    · obtain rfl : month = 12 := by omega
      have sameYear : marchYear (year + 1) 1 = marchYear year 12 := Int.add_sub_cancel year 1
      rw [if_neg december, dayNumber_mk, dayNumber_mk, sameYear]
      show _ + monthStart (marchMonth 12 + 1) + _ - _ = _
      omega

/-- From each day to the next the count of days goes up by one. -/
theorem dayNumber_next {date : Date} (onCalendar : date.OnCalendar) :
    date.next.dayNumber = date.dayNumber + 1 := by
  obtain ⟨year, month, day⟩ := date
  obtain ⟨⟨low, high⟩, _, last⟩ := onCalendar
  simp only at low high last
  unfold next
  by_cases inMonth : day < monthLength year month
  · simp only [if_pos inMonth, dayNumber_mk]
    omega
  · obtain rfl : day = monthLength year month := by omega
    simp only [if_neg inMonth, dayNumber_nextMonth year low high, dayNumber_mk]
    omega

/-- The day that a count of days stands for, from the year from March on and the day in it. -/
theorem ofDayNumber_eq {n year inYear : Int} (count : n + epochDay = yearStart year + inYear)
    (started : 0 ≤ inYear) (ends : inYear < yearStart (year + 1) - yearStart year) :
    ofDayNumber n =
      { year := if monthOf inYear < 10 then year else year + 1
        month := if monthOf inYear < 10 then monthOf inYear + 3 else monthOf inYear - 9
        day := inYear - monthStart (monthOf inYear) + 1 } := by
  have found : yearOf (yearStart year + inYear) = year := yearOf_eq (by omega) (by omega)
  unfold ofDayNumber
  simp only [count, found, add_sub_cancel_left]

theorem yearLength_bounds (year : Int) :
    365 ≤ yearStart (year + 1) - yearStart year ∧ yearStart (year + 1) - yearStart year ≤ 366 := by
  rw [yearStart_succ]
  split <;> omega

/-- A count of days stands for a day on the calendar, and is the count of that day. -/
theorem ofDayNumber_spec (n : Int) : (ofDayNumber n).OnCalendar ∧ (ofDayNumber n).dayNumber = n := by
  obtain ⟨started, ends⟩ := yearOf_spec (n + epochDay)
  generalize yearOf (n + epochDay) = year at started ends
  obtain ⟨inYear, count⟩ : ∃ inYear, n + epochDay = yearStart year + inYear :=
    ⟨n + epochDay - yearStart year, by omega⟩
  have length := yearLength_bounds year
  rw [ofDayNumber_eq count (by omega) (by omega)]
  have monthSpec := monthOf_spec inYear
  have months : 0 ≤ monthOf inYear ∧ monthOf inYear ≤ 11 := by
    unfold monthOf
    omega
  generalize monthOf inYear = m at monthSpec months ⊢
  obtain ⟨civilYear, month, isYear, isMonth, ⟨low, high⟩, sameYear, sameMonth⟩ :=
    exists_month year months.1 months.2
  have monthEnds := month_ends civilYear low high
  rw [sameYear, sameMonth] at monthEnds
  rw [isYear, isMonth]
  refine ⟨⟨⟨low, high⟩, ?_, ?_⟩, ?_⟩
  · show 1 ≤ inYear - monthStart m + 1
    omega
  · show inYear - monthStart m + 1 ≤ monthLength civilYear month
    split at monthEnds <;> omega
  · rw [dayNumber_mk, sameYear, sameMonth]
    omega

/-- A day is the one that its count of days stands for. -/
theorem ofDayNumber_dayNumber {date : Date} (onCalendar : date.OnCalendar) :
    ofDayNumber date.dayNumber = date := by
  obtain ⟨year, month, day⟩ := date
  obtain ⟨⟨low, high⟩, first, last⟩ := onCalendar
  simp only at low high first last
  have ends := month_ends year low high
  have length := yearLength_bounds (marchYear year month)
  have years : marchYear year month = if 3 ≤ month then year else year - 1 := rfl
  have months : marchMonth month = if 3 ≤ month then month - 3 else month + 9 := rfl
  have starts : ∀ m, monthStart m = (153 * m + 2) / 5 := fun _ => rfl
  have count : (Date.mk year month day).dayNumber + epochDay =
      yearStart (marchYear year month) + (monthStart (marchMonth month) + (day - 1)) := by
    rw [dayNumber_mk]
    omega
  have started := starts (marchMonth month)
  have nextStarted := starts (marchMonth month + 1)
  have inMonth : monthStart (marchMonth month) + (day - 1) < monthStart (marchMonth month + 1) := by
    split at ends <;> omega
  have inYear : monthStart (marchMonth month) + (day - 1) <
      yearStart (marchYear year month + 1) - yearStart (marchYear year month) := by
    split at ends <;> omega
  have found : monthOf (monthStart (marchMonth month) + (day - 1)) = marchMonth month :=
    monthOf_eq (by omega) inMonth
  rw [ofDayNumber_eq count (by omega) inYear, found, Date.mk.injEq]
  omega

theorem OnCalendar.next {date : Date} (onCalendar : date.OnCalendar) : date.next.OnCalendar := by
  obtain ⟨year, month, day⟩ := date
  obtain ⟨⟨low, high⟩, first, last⟩ := onCalendar
  simp only at low high first last
  unfold Date.next
  by_cases inMonth : day < monthLength year month
  · simp only [if_pos inMonth]
    exact ⟨⟨low, high⟩, Int.le_add_one first, inMonth⟩
  · simp only [if_neg inMonth]
    by_cases december : month < 12
    · rw [if_pos december]
      exact ⟨⟨Int.le_add_one low, december⟩, Int.le_refl 1, monthLength_pos _ _⟩
    · rw [if_neg december]
      exact ⟨⟨Int.le_refl 1, show (1 : Int) ≤ 12 by decide⟩, Int.le_refl 1, monthLength_pos _ _⟩

/-- The count after that of a day stands for the next day. -/
theorem ofDayNumber_succ (n : Int) : ofDayNumber (n + 1) = (ofDayNumber n).next := by
  obtain ⟨onCalendar, count⟩ := ofDayNumber_spec n
  have tomorrow := ofDayNumber_dayNumber onCalendar.next
  rw [dayNumber_next onCalendar, count] at tomorrow
  exact tomorrow

/-- Days later the calendar has gone on by as many days. -/
theorem ofDayNumber_add (n : Int) (days : Nat) : ofDayNumber (n + days) = Date.next^[days] (ofDayNumber n) := by
  induction days with
  | zero => simp
  | succ days ih =>
    rw [Function.iterate_succ_apply', ← ih, ← ofDayNumber_succ]
    congr 1
    omega

example : ofDayNumber 0 = ⟨1970, 1, 1⟩ := by decide

end EventSieve.Date
