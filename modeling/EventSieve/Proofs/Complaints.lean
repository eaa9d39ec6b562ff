import EventSieve.Proofs.Chain
import Mathlib.Tactic.ByContra

/-!
The complaints of chains made of the library's own filters. A chain asks its
stages only while there are events, at every depth, so no window ever misses a
day to be placed on. What is left to complain of is a time of day that cannot be
read: the first window called with one ends the run, and a run ends without a
result for no other reason.
-/

namespace EventSieve

def Leaf.isBuiltIn : Leaf → Bool
  | .custom .. => false
  | _ => true

/-- The window that was called, and why its time of day cannot be read. -/
def Call.unreadable? (call : Call) : Option (WindowFilter × ClockTime.ReadError) :=
  match call.callee with
  | .leaf (.window filter) =>
    match ClockTime.read filter.around with
    | .error problem => some (filter, problem)
    | .ok _ => none
  | _ => none

/-- The complaint of a window whose time of day cannot be read. -/
def WindowFilter.refusal (filter : WindowFilter) (problem : ClockTime.ReadError) : Complaint :=
  ⟨filter.channel, .aroundUnreadable filter.around problem⟩

/-- Calls are on events, complaints are those of the unreadable windows that were called, and there
    is one complaint where there is no result and none where there is one. -/
structure Orderly (result : Option (List Event)) (calls : List Call) (complaints : List Complaint) :
    Prop where
  fed : ∀ call ∈ calls, call.given ≠ []
  told : complaints = (calls.filterMap Call.unreadable?).map fun found => found.1.refusal found.2
  absent : result = none → complaints.length = 1
  present : result ≠ none → complaints = []

def Run.OrderlyOn (run : Run) (level : Level) (events : List Event) : Prop :=
  Orderly (run events level).1 (run events level).2.calls (run events level).2.complaints

namespace Orderly
variable {result : Option (List Event)} {kept : List Event}

theorem silent (kept : List Event) : Orderly (some kept) [] [] :=
  ⟨by simp, rfl, by simp, fun _ => rfl⟩

/-- A call that complains of nothing. -/
theorem quiet_call {call : Call} (fed : call.given ≠ []) (readable : call.unreadable? = none)
    (kept : List Event) : Orderly (some kept) [call] [] := by
  refine ⟨?_, ?_, by simp, fun _ => rfl⟩
  · intro other member
    rw [List.mem_singleton.1 member]
    exact fed
  · simp [readable]

theorem append {calls more : List Call} {complaints further : List Complaint}
    (first : Orderly (some kept) calls complaints) (later : Orderly result more further) :
    Orderly result (calls ++ more) (complaints ++ further) := by
  have quiet : complaints = [] := first.present (Option.some_ne_none kept)
  refine ⟨?_, ?_, ?_, ?_⟩
  · intro call member
    rcases List.mem_append.1 member with member | member
    · exact first.fed call member
    · exact later.fed call member
  · rw [List.filterMap_append, List.map_append, ← first.told, ← later.told]
  · intro absent
    rw [quiet, List.nil_append]
    exact later.absent absent
  · intro present
    rw [quiet, List.nil_append]
    exact later.present present

end Orderly

/-! ## Leaves -/

theorem WindowFilter.call_orderly (filter : WindowFilter) (level : Level) {events : List Event}
    (fed : events ≠ []) : Run.OrderlyOn (Leaf.call (.window filter)) level events := by
  cases reading : ClockTime.read filter.around with
  | error problem =>
    have run := run_unreadable reading fed level
    have blamed : Call.unreadable? ⟨.leaf (.window filter), events⟩ = some (filter, problem) := by
      simp [Call.unreadable?, reading]
    simp only [Run.OrderlyOn, Leaf.call, Leaf.run, Logged.bind_apply, Logged.called_apply, run,
      Journal.calls_append, Journal.complaints_append, List.nil_append, List.append_nil]
    refine ⟨?_, ?_, fun _ => rfl, fun present => absurd rfl present⟩
    · intro call member
      rw [List.mem_singleton.1 member]
      exact fed
    · rw [List.filterMap_cons, blamed]
      rfl
  | ok time =>
    obtain ⟨last, found⟩ := Option.ne_none_iff_exists'.1 (mt List.getLast?_eq_none_iff.1 fed)
    obtain ⟨result, quiet, uncalled⟩ := run_readable reading found level
    have readable : Call.unreadable? ⟨.leaf (.window filter), events⟩ = none := by
      simp [Call.unreadable?, reading]
    simp only [Run.OrderlyOn, Leaf.call, Leaf.run, Logged.bind_apply, Logged.called_apply, result,
      Journal.calls_append, Journal.complaints_append, quiet, uncalled, List.append_nil]
    exact Orderly.quiet_call fed readable _

theorem Leaf.call_orderly {stage : Leaf} (builtIn : stage.isBuiltIn = true) (level : Level)
    {events : List Event} (fed : events ≠ []) : Run.OrderlyOn stage.call level events := by
  cases stage with
  | warnings => exact Orderly.quiet_call fed rfl _
  | field which condition => exact Orderly.quiet_call fed rfl _
  | kind filter =>
    obtain ⟨quiet, uncalled⟩ := filter.run_silent events level
    have alone : Call.unreadable? ⟨.leaf (.kind filter), events⟩ = none := rfl
    simp only [Run.OrderlyOn, Leaf.call, Leaf.run, Logged.bind_apply, Logged.called_apply,
      Logged.pure_apply, Journal.append_empty, Journal.calls_append, Journal.complaints_append, quiet,
      uncalled, List.append_nil]
    exact Orderly.quiet_call fed alone _
  | window filter => exact filter.call_orderly level fed
  | custom ownName tag keep => cases builtIn

/-! ## Chains -/

/-- A turn is orderly if the stage is, where it gets events, and what follows it. -/
theorem Chain.turn_orderly (name : String) (position left : Nat) {stage further : Run} {level : Level}
    {events : List Event} (here : events ≠ [] → Run.OrderlyOn stage level events)
    (there : ∀ kept, Run.OrderlyOn further level kept) :
    Run.OrderlyOn (Chain.turn name position left stage further) level events := by
  unfold Run.OrderlyOn at *
  by_cases fed : events = []
  · rw [fed, turn_nil]
    simpa using Orderly.silent []
  · cases result : (stage events level).1 with
    | none =>
      have first := here fed
      rw [turn_absent _ _ _ _ _ fed result]
      simpa [result] using first
    | some kept =>
      have first := here fed
      rw [result] at first
      rw [turn_kept _ _ _ _ _ fed result]
      simpa using first.append (there kept)

theorem Filter.runFrom_orderly {stages : List Filter} {level : Level}
    (each : ∀ stage ∈ stages, ∀ events, events ≠ [] → Run.OrderlyOn stage.run level events)
    (position : Nat) (events : List Event) :
    Run.OrderlyOn (Chain.runFrom name run position stages) level events := by
  induction stages generalizing position events with
  | nil => exact Orderly.silent events
  | cons stage rest ih =>
    obtain ⟨here, further⟩ := List.forall_mem_cons.1 each
    exact Chain.turn_orderly _ _ _ (here events) (ih further (position + 1))

/-- The invariant of every depth: a filter of built-in leaves is orderly where it gets events. -/
theorem Filter.run_orderly {filter : Filter} (level : Level)
    (builtIn : ∀ stage ∈ filter.leaves, stage.isBuiltIn = true) :
    ∀ events, events ≠ [] → Run.OrderlyOn filter.run level events := by
  induction filter with
  | leaf stage =>
    intro events fed
    exact Leaf.call_orderly (builtIn stage (List.mem_singleton_self stage)) level fed
  | chain stages ih =>
    intro events fed
    have each : ∀ stage ∈ stages, ∀ events, events ≠ [] → Run.OrderlyOn stage.run level events :=
      fun stage member => ih stage member fun leaf known => builtIn leaf (leaves_subset member known)
    have called : Orderly (some events) [⟨.chain, events⟩] [] := Orderly.quiet_call fed rfl events
    have turns := runFrom_orderly each 0 events
    rw [Run.OrderlyOn, run_chain]
    exact called.append turns

/-- Where there is no result, the one complaint is that of the first unreadable window called. -/
theorem Orderly.blamed {result : Option (List Event)} {calls : List Call} {complaints : List Complaint}
    (orderly : Orderly result calls complaints) (absent : result = none) :
    ∃ window problem, calls.findSome? Call.unreadable? = some (window, problem) ∧
      complaints = [window.refusal problem] := by
  have one : (calls.filterMap Call.unreadable?).length = 1 := by
    simpa [orderly.told] using orderly.absent absent
  obtain ⟨⟨window, problem⟩, found⟩ := List.length_eq_one_iff.1 one
  refine ⟨window, problem, ?_, ?_⟩
  · rw [← List.head?_filterMap, found, List.head?_cons]
  · rw [orderly.told, found]
    rfl

theorem Orderly.absent_iff {result : Option (List Event)} {calls : List Call}
    {complaints : List Complaint} (orderly : Orderly result calls complaints) :
    result = none ↔ complaints.length = 1 := by
  refine ⟨orderly.absent, fun one => ?_⟩
  by_contra present
  rw [orderly.present present] at one
  cases one

/-- The complaints of a chain of built-in filters, at any depth: no stage is called without events,
    so none misses a day; there is no result exactly when there is one complaint, which is that of
    the first window called whose time of day cannot be read; and there is none beside a result. -/
theorem Filter.complaints_of_run (stages : List Filter)
    (builtIn : ∀ stage ∈ leaves (.chain stages), stage.isBuiltIn = true) (events : List Event)
    (level : Level) :
    let result := (run (.chain stages) events level).1
    let journal := (run (.chain stages) events level).2
    (∃ inner, journal.calls = ⟨.chain, events⟩ :: inner ∧ ∀ call ∈ inner, call.given ≠ []) ∧
    (∀ complaint ∈ journal.complaints, ∀ around, complaint.message ≠ .dayMissing around) ∧
    (result = none ↔ journal.complaints.length = 1) ∧
    (result = none ↔ ∃ window problem complaint,
      journal.calls.findSome? Call.unreadable? = some (window, problem) ∧
      journal.complaints = [complaint] ∧ complaint.channel = window.channel ∧
      complaint.message.text =
        "invalid around time \"" ++ window.around ++ "\": " ++ problem.message) ∧
    (result ≠ none → journal.complaints = []) := by
  intro result journal
  have each : ∀ stage ∈ stages, ∀ events, events ≠ [] → Run.OrderlyOn stage.run level events :=
    fun stage member => run_orderly level fun leaf known => builtIn leaf (leaves_subset member known)
  have turns := runFrom_orderly each 0 events
  let inner := (Chain.runFrom name run 0 stages events level).2.calls
  have calls : journal.calls = ⟨.chain, events⟩ :: inner := by
    simp [journal, inner, run_chain]
  have complaints : journal.complaints = (Chain.runFrom name run 0 stages events level).2.complaints := by
    simp [journal, run_chain]
  have sameResult : result = (Chain.runFrom name run 0 stages events level).1 := by
    simp [result, run_chain]
  have orderly : Orderly result inner journal.complaints := by
    rw [sameResult, complaints]
    exact turns
  have first : journal.calls.findSome? Call.unreadable? = inner.findSome? Call.unreadable? := by
    rw [calls]
    rfl
  refine ⟨⟨inner, calls, orderly.fed⟩, ?_, orderly.absent_iff, ?_, orderly.present⟩
  · intro complaint written around
    rw [orderly.told] at written
    obtain ⟨⟨window, problem⟩, _, rfl⟩ := List.mem_map.1 written
    simp [WindowFilter.refusal]
  · rw [first]
    constructor
    · intro absent
      obtain ⟨window, problem, found, told⟩ := orderly.blamed absent
      exact ⟨window, problem, _, found, told, rfl, rfl⟩
    · rintro ⟨_, _, _, _, told, _⟩
      exact orderly.absent_iff.2 (congrArg List.length told)

/-- A nested chain hands a warning on to a window around a text without minutes. -/
theorem Filter.complaints_of_run_unreadable :
    let window : WindowFilter := { around := "25", channel := "/window" }
    let stages := [chain [.leaf .warnings, .chain []], .leaf (.window window)]
    let event : Event := { place := 0, severity := .warning }
    (∀ stage ∈ leaves (.chain stages), stage.isBuiltIn = true) ∧
    (run (.chain stages) [event] .info).1 = none ∧
    (run (.chain stages) [event] .info).2.complaints.length = 1 := by
  intro window stages event
  have builtIn : ∀ stage ∈ leaves (.chain stages), stage.isBuiltIn = true := by
    simp [stages, leaves, leavesAll, Leaf.isBuiltIn]
  have absent : (run (.chain stages) [event] .info).1 = none := by
    decide +kernel
  have complaints := complaints_of_run stages builtIn [event] .info
  exact ⟨builtIn, absent, complaints.2.2.1.1 absent⟩

end EventSieve
