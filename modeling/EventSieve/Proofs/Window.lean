import EventSieve.Proofs.Selection
import Mathlib.Data.List.Forall2

/-!
What a window keeps. The anchor is found from the last event alone, and each
event is then held against it by its instant. So a longer span keeps more, the
zones of the other events do not count, and where the last event is kept a
second pass finds the same anchor and keeps everything.
-/

namespace EventSieve

namespace Span

/-- One span is no longer than another. -/
inductive NoLonger : Span → Span → Prop
  | lowest (longer : Span) : NoLonger .minusEndless longer
  | finite {m n : Int} (le : m ≤ n) : NoLonger (.finite m) (.finite n)
  | highest (shorter : Span) : NoLonger shorter .endless

instance : LE Span := ⟨NoLonger⟩

theorem window_mono {shorter longer : Span} (le : shorter ≤ longer) (anchor : Int) :
    shorter.window anchor ⊆ longer.window anchor := by
  intro instant inside
  rcases le with _ | ⟨le⟩ | _
  · exact inside.elim
  · obtain ⟨low, high⟩ := inside
    constructor <;> omega
  · trivial

/-- Where the span is below zero the window ends before it starts. -/
theorem window_negative {span : Span} (negative : span.isNegative = true) (anchor : Int) :
    span.window anchor = ∅ := by
  cases span with
  | finite n =>
    have below : n < 0 := of_decide_eq_true negative
    apply Set.eq_empty_of_forall_notMem
    rintro instant ⟨low, high⟩
    omega
  | endless => cases negative
  | minusEndless => rfl

/-- A span of whole nanoseconds reaches so many nanoseconds to either side. -/
theorem mem_window_ofNanoseconds {n anchor instant : Int} :
    instant ∈ (ofNanoseconds n).window anchor ↔ anchor - n ≤ instant ∧ instant ≤ anchor + n := by
  show ticksPerNano * anchor - ticksPerNano * n ≤ ticksPerNano * instant ∧
    ticksPerNano * instant ≤ ticksPerNano * anchor + ticksPerNano * n ↔ _
  simp only [ticksPerNano]
  omega

end Span

/-- The event as a clock of another zone would have recorded it. -/
def Event.inZone (event : Event) (zone : Int) : Event :=
  { event with lastSeen := { event.lastSeen with zone } }

/-- The same events in the same order, each with a zone of its own. -/
def SameButZones : List Event → List Event → Prop :=
  List.Forall₂ fun event other => ∃ zone, other = event.inZone zone

namespace WindowFilter

theorem run_ends {filter : WindowFilter} {time : ClockTime} (readable : ClockTime.read filter.around = .ok time)
    (earlier : List Event) (last : Event) (level : Level) :
    (filter.run (earlier ++ [last]) level).1 =
      some ((earlier ++ [last]).filter fun event =>
        event.lastSeen.instant ∈ filter.span.window (time.anchor last.lastSeen)) := by
  have found : (earlier ++ [last]).getLast? = some last := List.getLast?_concat
  rw [(run_readable readable found level).1, inside_eq]

theorem run_refused {filter : WindowFilter} {problem : ClockTime.ReadError}
    (unreadable : ClockTime.read filter.around = .error problem) (earlier : List Event) (last : Event)
    (level : Level) : (filter.run (earlier ++ [last]) level).1 = none := by
  have fed : earlier ++ [last] ≠ [] := List.concat_ne_nil last earlier
  rw [run_unreadable unreadable fed]

/-- The window is laid over instants, which a change of zones leaves. -/
theorem filter_sameButZones {events others : List Event} (same : SameButZones events others) (window : Set Int)
    [DecidablePred (· ∈ window)] :
    SameButZones (events.filter fun event => event.lastSeen.instant ∈ window)
      (others.filter fun event => event.lastSeen.instant ∈ window) := by
  apply List.rel_filter _ same
  rintro event _ ⟨zone, rfl⟩
  rfl

theorem run_sameButZones (filter : WindowFilter) {earlier others : List Event}
    (same : SameButZones earlier others) (last : Event) (level : Level) :
    Option.Rel SameButZones (filter.run (earlier ++ [last]) level).1 (filter.run (others ++ [last]) level).1 := by
  cases reading : ClockTime.read filter.around with
  | error problem =>
    rw [run_refused reading, run_refused reading]
    exact .none
  | ok time =>
    rw [run_ends reading, run_ends reading]
    have unmoved : SameButZones [last] [last] := .cons ⟨last.lastSeen.zone, rfl⟩ .nil
    exact .some (filter_sameButZones (List.rel_append same unmoved) _)

/-- What was kept ends with the last event, if that was kept. -/
theorem filter_ends {p : Event → Bool} {earlier : List Event} {last : Event}
    (kept : last ∈ (earlier ++ [last]).filter p) :
    (earlier ++ [last]).filter p = earlier.filter p ++ [last] := by
  have holds : p last = true := (List.mem_filter.1 kept).2
  rw [List.filter_append, List.filter_singleton, holds, cond_true]

theorem run_again {filter : WindowFilter} {earlier kept : List Event} {last : Event} {level : Level}
    (first : (filter.run (earlier ++ [last]) level).1 = some kept) (survived : last ∈ kept) :
    (filter.run kept level).1 = some kept := by
  cases reading : ClockTime.read filter.around with
  | error problem =>
    rw [run_refused reading] at first
    cases first
  | ok time =>
    rw [run_ends reading, Option.some.injEq] at first
    subst first
    -- The second pass has the same last event, hence the same anchor.
    have ends := filter_ends survived
    rw [ends, run_ends reading, ← ends, List.filter_filter]
    simp only [Bool.and_self]

/-- Of events that end with `last` a window keeps, in order, each occurrence whose instant lies in it,
    both ends included, and it has no result just where the time of day cannot be read. A finite span
    reaches so many ticks to either side, and one of whole nanoseconds so many of these. An endless span
    keeps all and one below zero nothing; a longer one keeps more; no zone counts but that of the last
    event; and where that is kept, the window keeps all that it kept once. -/
theorem run_selects (around channel : String) (earlier : List Event) (last : Event) (level : Level) :
    let kept (span : Span) (events : List Event) := ((WindowFilter.mk around span channel).run events level).1
    let events := earlier ++ [last]
    (∀ span, kept span events = none ↔ ∃ problem, ClockTime.read around = .error problem) ∧
    (∀ time, ClockTime.read around = .ok time →
      let anchor := time.anchor last.lastSeen
      (∀ d : Int, kept (.finite d) events = some (events.filter fun event =>
        ticksPerNano * anchor - d ≤ ticksPerNano * event.lastSeen.instant ∧
          ticksPerNano * event.lastSeen.instant ≤ ticksPerNano * anchor + d)) ∧
      (∀ n : Int, kept (.ofNanoseconds n) events = some (events.filter fun event =>
        anchor - n ≤ event.lastSeen.instant ∧ event.lastSeen.instant ≤ anchor + n)) ∧
      kept .endless events = some events ∧
      (∀ span, span.isNegative = true → kept span events = some []) ∧
      ∀ shorter longer, shorter ≤ longer →
        ∃ few many, kept shorter events = some few ∧ kept longer events = some many ∧ few.Sublist many) ∧
    (∀ span others, SameButZones earlier others →
      Option.Rel SameButZones (kept span events) (kept span (others ++ [last]))) ∧
    ∀ span once, kept span events = some once → last ∈ once → kept span once = some once := by
  intro kept events
  refine ⟨?_, ?_, fun span others same => run_sameButZones _ same last level,
    fun span once first survived => run_again first survived⟩
  · intro span
    let filter : WindowFilter := ⟨around, span, channel⟩
    cases reading : ClockTime.read around with
    | error problem =>
      have unreadable : ClockTime.read filter.around = .error problem := reading
      simpa using run_refused unreadable earlier last level
    | ok time =>
      have readable : ClockTime.read filter.around = .ok time := reading
      have found : kept span events = some _ := run_ends readable earlier last level
      simp [found]
  · intro time readable anchor
    have selected : ∀ span, kept span events =
        some (events.filter fun event => event.lastSeen.instant ∈ span.window anchor) := by
      intro span
      let filter : WindowFilter := ⟨around, span, channel⟩
      have readable : ClockTime.read filter.around = .ok time := readable
      exact run_ends readable earlier last level
    refine ⟨fun d => selected (.finite d), fun n => ?_, ?_, ?_, ?_⟩
    · simpa only [Span.mem_window_ofNanoseconds] using selected (.ofNanoseconds n)
    · rw [selected, Option.some.injEq, List.filter_eq_self]
      exact fun event _ => decide_eq_true trivial
    · intro span negative
      rw [selected, Option.some.injEq, List.filter_eq_nil_iff]
      intro event _ inside
      have nowhere : event.lastSeen.instant ∈ (∅ : Set Int) :=
        Span.window_negative negative anchor ▸ of_decide_eq_true inside
      exact nowhere
    · intro shorter longer le
      refine ⟨_, _, selected shorter, selected longer, ?_⟩
      apply List.monotone_filter_right
      intro event inside
      exact decide_eq_true (Span.window_mono le anchor (of_decide_eq_true inside))

/-- Two minutes around ten o'clock in a zone eight hours east, for events at 10:02, at 10:02 and a
    nanosecond, and last at 09:58: the second is dropped, whatever its zone was, and a second pass
    changes nothing. An endless span keeps all three, and one below zero none. -/
theorem run_selects_bounds :
    let seen (place : Nat) (instant : Int) : Event := { place, lastSeen := ⟨instant, 28800⟩ }
    let upper := seen 0 7320000000000
    let late := seen 1 7320000000001
    let lower := seen 2 7080000000000
    let span := Span.ofNanoseconds 120000000000
    let kept (span : Span) (events : List Event) :=
      ((WindowFilter.mk "10:00" span WindowFilter.commonChannel).run events .info).1
    kept span [upper, late, lower] = some [upper, lower] ∧
    kept span [upper, lower] = some [upper, lower] ∧
    Option.Rel SameButZones (kept span [upper, late, lower]) (kept span [upper, late.inZone 0, lower]) ∧
    kept .minusEndless [upper, late, lower] = some [] ∧
    span ≤ .endless ∧ [upper, lower].Sublist [upper, late, lower] := by
  intro seen upper late lower span kept
  have readable : ClockTime.read "10:00" = .ok { hour := 10 } := by decide
  obtain ⟨_, selected, zones, again⟩ :=
    run_selects "10:00" WindowFilter.commonChannel [upper, late] lower .info
  obtain ⟨_, bounded, endless, negative, longer⟩ := selected _ readable
  have le : span ≤ .endless := .highest span
  have first : kept span [upper, late, lower] = some [upper, lower] := by
    refine (bounded 120000000000).trans ?_
    decide
  have same : SameButZones [upper, late] [upper, late.inZone 0] :=
    .cons ⟨28800, rfl⟩ (.cons ⟨0, rfl⟩ .nil)
  obtain ⟨few, many, isFew, isMany, sub⟩ := longer span .endless le
  obtain rfl : [upper, lower] = few := Option.some.inj (first.symm.trans isFew)
  obtain rfl : [upper, late, lower] = many := Option.some.inj (endless.symm.trans isMany)
  exact ⟨first, again span _ first (by decide), zones span _ same, negative _ rfl, le, sub⟩

end WindowFilter

end EventSieve
