import EventSieve.Proofs.Journal
import EventSieve.Stage
import Mathlib.Tactic.SplitIfs

/-!
What leaves return and what they leave behind. The filters on severity, on
fields and on kinds always have a result, in which each event stands as often as
they emit it, and complain of nothing. A window has no result where it
complains, once, and only there.
-/

namespace EventSieve

/-! ## Repeated events -/

/-- Each event in order, as often as the count says. -/
def spread (copies : Event → Nat) (events : List Event) : List Event :=
  events.flatMap fun event => List.replicate (copies event) event

@[simp] theorem spread_nil (copies : Event → Nat) : spread copies [] = [] := rfl

@[simp] theorem spread_cons (copies : Event → Nat) (event : Event) (rest : List Event) :
    spread copies (event :: rest) = List.replicate (copies event) event ++ spread copies rest := rfl

theorem spread_append (copies : Event → Nat) (first later : List Event) :
    spread copies (first ++ later) = spread copies first ++ spread copies later :=
  List.flatMap_append

theorem mem_spread {copies : Event → Nat} {events : List Event} {event : Event} :
    event ∈ spread copies events ↔ event ∈ events ∧ 0 < copies event := by
  constructor
  · intro kept
    obtain ⟨source, given, copied⟩ := List.mem_flatMap.1 kept
    obtain ⟨nonzero, rfl⟩ := List.mem_replicate.1 copied
    exact ⟨given, Nat.pos_of_ne_zero nonzero⟩
  · rintro ⟨given, positive⟩
    exact List.mem_flatMap.2 ⟨event, given, List.mem_replicate.2 ⟨Nat.ne_of_gt positive, rfl⟩⟩

theorem count_spread (copies : Event → Nat) (events : List Event) (event : Event) :
    (spread copies events).count event = copies event * events.count event := by
  induction events with
  | nil => rfl
  | cons first rest ih =>
    rw [spread_cons, List.count_append, List.count_replicate, ih, List.count_cons]
    by_cases same : first = event
    · simp [same, Nat.mul_add, Nat.add_comm]
    · simp [same]

/-- Spreading what was spread multiplies the counts. -/
theorem spread_spread (first second : Event → Nat) (events : List Event) :
    spread second (spread first events) = spread (fun event => first event * second event) events := by
  induction events with
  | nil => rfl
  | cons event rest ih =>
    have here : spread second (List.replicate (first event) event) =
        List.replicate (first event * second event) event := by
      simp only [spread, List.flatMap_replicate, List.flatten_replicate_replicate]
    rw [spread_cons, spread_append, here, ih, spread_cons]

theorem spread_one (events : List Event) : spread (fun _ => 1) events = events := by
  induction events with
  | nil => rfl
  | cons event rest ih => rw [spread_cons, ih]; rfl

/-- Counts of one or none are a choice. -/
theorem spread_choice (p : Event → Prop) [DecidablePred p] (events : List Event) :
    spread (fun event => if p event then 1 else 0) events = events.filter fun event => p event := by
  induction events with
  | nil => rfl
  | cons event rest ih =>
    by_cases chosen : p event <;> simp [chosen, ih]

/-- More copies of each event leave the fewer copies among them. -/
theorem spread_sublist {fewer more : Event → Nat} (le : ∀ event, fewer event ≤ more event)
    (events : List Event) : (spread fewer events).Sublist (spread more events) := by
  induction events with
  | nil => exact List.Sublist.refl _
  | cons event rest ih =>
    rw [spread_cons, spread_cons]
    exact ((List.replicate_sublist_replicate event).2 (le event)).append ih

/-! ## Filters on severity, fields and kinds -/

theorem Subject.kind_qualifiedKind (subject : Subject) : subject.qualifiedKind.kind = subject.kind := by
  unfold Subject.qualifiedKind
  cases ApiVersion.read subject.apiVersion <;> rfl

theorem Subject.resolve_result (subject : Subject) (level : Level) :
    (subject.resolve level).1 = subject.qualifiedKind := by
  unfold Subject.resolve
  cases ApiVersion.read subject.apiVersion <;> rfl

theorem Subject.resolve_silent (subject : Subject) (level : Level) :
    (subject.resolve level).2.complaints = [] ∧ (subject.resolve level).2.calls = [] := by
  unfold Subject.resolve
  cases ApiVersion.read subject.apiVersion <;> simp

def KindFilter.copiesOf (filter : KindFilter) (event : Event) : Nat :=
  filter.copies event.subject.qualifiedKind

theorem KindFilter.run_result (filter : KindFilter) (events : List Event) (level : Level) :
    (filter.run events level).1 = spread filter.copiesOf events := by
  induction events with
  | nil => rfl
  | cons event rest ih =>
    simp only [KindFilter.run, Logged.bind_apply, Logged.pure_apply, Subject.resolve_result, ih,
      spread_cons, KindFilter.copiesOf]

/-- How often a filter on kinds emits an event. -/
theorem KindFilter.count_run (filter : KindFilter) (events : List Event) (event : Event) (level : Level) :
    (filter.run events level).1.count event = filter.copies event.subject.qualifiedKind * events.count event := by
  rw [run_result, count_spread, copiesOf]

theorem KindFilter.run_silent (filter : KindFilter) (events : List Event) (level : Level) :
    (filter.run events level).2.complaints = [] ∧ (filter.run events level).2.calls = [] := by
  induction events with
  | nil => exact ⟨rfl, rfl⟩
  | cons event rest ih =>
    obtain ⟨quiet, uncalled⟩ := event.subject.resolve_silent level
    simp [KindFilter.run, quiet, uncalled, ih.1, ih.2]

theorem KindFilter.copies_exclusionFirst_le (rules : List Rule) (actual : QualifiedKind) :
    (KindFilter.mk .exclusionFirst rules).copies actual ≤ 1 := by
  unfold KindFilter.copies
  cases isIncluded actual rules false <;> simp

theorem KindFilter.copies_legacy_le (rules : List Rule) (actual : QualifiedKind) :
    (KindFilter.mk .legacy rules).copies actual ≤ 2 := by
  simp only [KindFilter.copies, KindFilter.legacyCopies]
  split_ifs <;> omega

/-! ## Windows -/

theorem WindowFilter.run_nil (filter : WindowFilter) (level : Level) :
    filter.run [] level =
      (none, { complaints := [⟨filter.channel, .dayMissing filter.around⟩] }) := by
  have grave : (Message.dayMissing filter.around).level = .error := rfl
  simp [WindowFilter.run, Logged.complain_apply filter.channel grave]

theorem WindowFilter.run_unreadable {filter : WindowFilter} {problem : ClockTime.ReadError}
    (unreadable : ClockTime.read filter.around = .error problem) {events : List Event}
    (fed : events ≠ []) (level : Level) :
    filter.run events level =
      (none, { complaints := [⟨filter.channel, .aroundUnreadable filter.around problem⟩] }) := by
  obtain ⟨last, found⟩ := Option.ne_none_iff_exists'.1 (mt List.getLast?_eq_none_iff.1 fed)
  have grave : (Message.aroundUnreadable filter.around problem).level = .error := rfl
  simp [WindowFilter.run, found, unreadable, Logged.complain_apply filter.channel grave]

theorem WindowFilter.run_readable {filter : WindowFilter} {time : ClockTime}
    (readable : ClockTime.read filter.around = .ok time) {events : List Event} {last : Event}
    (found : events.getLast? = some last) (level : Level) :
    (filter.run events level).1 =
        some (WindowFilter.inside filter.span (time.anchor last.lastSeen) events) ∧
      (filter.run events level).2.complaints = [] ∧ (filter.run events level).2.calls = [] := by
  simp [WindowFilter.run, found, readable]

end EventSieve
