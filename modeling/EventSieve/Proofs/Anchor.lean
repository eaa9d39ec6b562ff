import EventSieve.Proofs.Calendar
import EventSieve.Time.ClockTime

/-!
Where the anchor of a window lies. A clock that shows a time of day with fields
out of range on some day shows that day's midnight and as many seconds more as
the fields come to, and its calendar goes on by the whole days among them. The
anchor is therefore found from the instant of the reference by arithmetic alone,
whatever months, leap days and centuries lie between, before 1970 as after it.
-/

namespace EventSieve

namespace Civil

/-- Fields are normalised to what a clock shows after the seconds that they come to. -/
theorem ofFields_eq (date : Date) (hour minute second : Int) :
    ofFields date hour minute second =
      ofClockSeconds (secondsPerDay * date.dayNumber + (3600 * hour + 60 * minute + second)) := by
  have day : date.dayNumber + (hour + (minute + second / 60) / 60) / 24 =
      (86400 * date.dayNumber + (3600 * hour + 60 * minute + second)) / 86400 := by omega
  simp only [ofFields, ofClockSeconds, secondsPerDay, day, Civil.mk.injEq, true_and]
  omega

/-- What a clock shows tells how many seconds it has run. -/
theorem clockSeconds_ofClockSeconds (seconds : Int) : (ofClockSeconds seconds).clockSeconds = seconds := by
  simp only [ofClockSeconds, clockSeconds, secondsPerDay, (Date.ofDayNumber_spec _).2]
  omega

theorem clockSeconds_ofFields (date : Date) (hour minute second : Int) :
    (ofFields date hour minute second).clockSeconds =
      secondsPerDay * date.dayNumber + (3600 * hour + 60 * minute + second) := by
  rw [ofFields_eq, clockSeconds_ofClockSeconds]

/-- The calendar goes on by the whole days among the seconds of the fields. -/
theorem date_ofFields {date : Date} (onCalendar : date.OnCalendar) {hour minute second : Int} {days : Nat}
    (whole : (3600 * hour + 60 * minute + second) / 86400 = days) :
    (ofFields date hour minute second).date = Date.next^[days] date := by
  have count : (secondsPerDay * date.dayNumber + (3600 * hour + 60 * minute + second)) / secondsPerDay =
      date.dayNumber + days := by
    unfold secondsPerDay
    omega
  rw [ofFields_eq]
  show Date.ofDayNumber (_ / secondsPerDay) = _
  rw [count, Date.ofDayNumber_add, Date.ofDayNumber_dayNumber onCalendar]

/-- Fields in range are what the clock shows. -/
theorem ofFields_inRange {date : Date} (onCalendar : date.OnCalendar) {hour minute second : Int}
    (hours : 0 ≤ hour ∧ hour < 24) (minutes : 0 ≤ minute ∧ minute < 60) (seconds : 0 ≤ second ∧ second < 60) :
    ofFields date hour minute second = ⟨date, hour, minute, second⟩ := by
  have day : date.dayNumber + (hour + (minute + second / 60) / 60) / 24 = date.dayNumber := by omega
  simp only [ofFields, day, Date.ofDayNumber_dayNumber onCalendar, Civil.mk.injEq, true_and]
  omega

end Civil

namespace Stamp

theorem onCalendar_civil (stamp : Stamp) : stamp.civil.date.OnCalendar := (Date.ofDayNumber_spec _).1

theorem clockSeconds_civil (stamp : Stamp) : stamp.civil.clockSeconds = stamp.unixSeconds + stamp.zone :=
  Civil.clockSeconds_ofClockSeconds _

theorem dayNumber_civil (stamp : Stamp) :
    stamp.civil.date.dayNumber = (stamp.unixSeconds + stamp.zone) / secondsPerDay :=
  (Date.ofDayNumber_spec _).2

/-- The instant at which the calendar day of the stamp begins in its zone. -/
def midnight (stamp : Stamp) : Int :=
  (secondsPerDay * stamp.civil.date.dayNumber - stamp.zone) * nanosPerSecond

/-- At that instant a clock in the zone shows the start of the day. -/
theorem civil_midnight (stamp : Stamp) :
    (Stamp.mk stamp.midnight stamp.zone).civil = ⟨stamp.civil.date, 0, 0, 0⟩ := by
  have seconds : (Stamp.mk stamp.midnight stamp.zone).unixSeconds + stamp.zone =
      secondsPerDay * stamp.civil.date.dayNumber + (3600 * 0 + 60 * 0 + 0) := by
    simp only [midnight, Stamp.unixSeconds, nanosPerSecond]
    omega
  have start : Civil.ofFields stamp.civil.date 0 0 0 = ⟨stamp.civil.date, 0, 0, 0⟩ :=
    Civil.ofFields_inRange stamp.onCalendar_civil (by decide) (by decide) (by decide)
  rw [← start, Civil.ofFields_eq, ← seconds]
  rfl

theorem subsecond_bounds (stamp : Stamp) : 0 ≤ stamp.subsecond ∧ stamp.subsecond < nanosPerSecond := by
  unfold subsecond nanosPerSecond
  omega

end Stamp

namespace ClockTime

/-- The anchor as a distance from the midnight that begins the day of the reference. -/
theorem anchor_eq_midnight_add (time : ClockTime) (reference : Stamp) :
    time.anchor reference = reference.midnight +
      (3600 * time.hour + 60 * time.minute + time.second) * nanosPerSecond + reference.subsecond := by
  simp only [anchor, Civil.clockSeconds_ofFields, Stamp.midnight, nanosPerSecond]
  omega

/-- The anchor shows the time of day on the calendar day of the reference. -/
theorem civil_anchor (time : ClockTime) (reference : Stamp) :
    (Stamp.mk (time.anchor reference) reference.zone).civil =
      Civil.ofFields reference.civil.date time.hour time.minute time.second := by
  have seconds : (Stamp.mk (time.anchor reference) reference.zone).unixSeconds + reference.zone =
      secondsPerDay * reference.civil.date.dayNumber +
        (3600 * time.hour + 60 * time.minute + time.second) := by
    simp only [anchor, Civil.clockSeconds_ofFields, Stamp.unixSeconds, Stamp.subsecond, nanosPerSecond]
    omega
  rw [Civil.ofFields_eq, ← seconds]
  rfl

/-- The anchor by arithmetic: as many seconds after the midnight that begins the day of the reference
    in its zone as the time of day comes to, and the reference's part of a second. There calendar and
    clock show the time of day, carried into the date where its fields are out of range: a time in
    range lies on the day of the reference, one from `24:00` on as many days later as it is whole
    days long. -/
theorem anchor_linear (time : ClockTime) (reference : Stamp) :
    let length := 3600 * time.hour + 60 * time.minute + time.second
    let shown := (Stamp.mk (time.anchor reference) reference.zone).civil
    time.anchor reference =
      1000000000 * (86400 * ((reference.instant / 1000000000 + reference.zone) / 86400) - reference.zone +
        3600 * time.hour + 60 * time.minute + time.second) + reference.instant % 1000000000 ∧
    (reference.civil.date.OnCalendar ∧
      reference.civil.clockSeconds = reference.instant / 1000000000 + reference.zone) ∧
    shown = Civil.ofFields reference.civil.date time.hour time.minute time.second ∧
    (0 ≤ time.hour → time.hour < 24 → 0 ≤ time.minute → time.minute < 60 → 0 ≤ time.second →
      time.second < 60 → shown = ⟨reference.civil.date, time.hour, time.minute, time.second⟩) ∧
    (24 ≤ time.hour → 0 ≤ time.minute → 0 ≤ time.second →
      ∃ days : Nat, 0 < days ∧ length / 86400 = days ∧ shown.date = Date.next^[days] reference.civil.date) := by
  intro length shown
  have normalised : shown = Civil.ofFields reference.civil.date time.hour time.minute time.second :=
    civil_anchor time reference
  refine ⟨?_, ⟨reference.onCalendar_civil, reference.clockSeconds_civil⟩, normalised, ?_, ?_⟩
  · simp only [anchor, Civil.clockSeconds_ofFields, Stamp.dayNumber_civil, Stamp.unixSeconds, Stamp.subsecond,
      nanosPerSecond, secondsPerDay]
    omega
  · intro hourLow hourHigh minuteLow minuteHigh secondLow secondHigh
    rw [normalised]
    exact Civil.ofFields_inRange reference.onCalendar_civil ⟨hourLow, hourHigh⟩ ⟨minuteLow, minuteHigh⟩
      ⟨secondLow, secondHigh⟩
  · intro later minuteLow secondLow
    obtain ⟨days, whole⟩ : ∃ days : Nat, length / 86400 = days := ⟨_, (Int.toNat_of_nonneg (by omega)).symm⟩
    refine ⟨days, by omega, whole, ?_⟩
    rw [normalised, Civil.date_ofFields reference.onCalendar_civil whole]

/-- A midnight that ends a day: half a second before the March of 1900, which had no leap day, `24:00`
    names the first of March, half a second past midnight. -/
theorem anchor_linear_century :
    let reference : Stamp := ⟨-2203891200500000000, 0⟩
    let time : ClockTime := { hour := 24 }
    reference.civil.date = ⟨1900, 2, 28⟩ ∧ time.anchor reference = -2203891199500000000 ∧
    (Stamp.mk (time.anchor reference) 0).civil.date = ⟨1900, 3, 1⟩ := by
  intro reference time
  obtain ⟨linear, _, _, _, later⟩ := anchor_linear time reference
  have day : reference.civil.date = ⟨1900, 2, 28⟩ := by decide
  obtain ⟨days, _, whole, shown⟩ := later (by decide) (by decide) (by decide)
  obtain rfl : days = 1 := by
    have one : (3600 * time.hour + 60 * time.minute + time.second) / 86400 = 1 := by decide
    omega
  refine ⟨day, linear, ?_⟩
  rw [day] at shown
  exact shown

end ClockTime

end EventSieve
