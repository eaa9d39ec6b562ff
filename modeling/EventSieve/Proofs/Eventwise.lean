import EventSieve.Proofs.Selection
import Mathlib.Algebra.BigOperators.Group.List.Basic

/-!
Chains without a window act on each event by itself. A leaf of such a chain
makes of an event what it makes of it alone (`Leaf.copies`), so the whole chain
emits an event as often as the product of its leaves says. The order of the
leaves, the way in which they are nested and what comes with an event therefore
make no difference, and where no leaf emits an event twice a second run changes
nothing.
-/

namespace EventSieve

namespace Leaf

/-- The filters on severity, on a field and on kinds look at one event at a time. -/
def isEventwise : Leaf → Bool
  | .warnings | .field _ _ | .kind _ => true
  | .window _ | .custom _ _ _ => false

def isLegacy : Leaf → Bool
  | .kind filter => filter.mode = .legacy
  | _ => false

/-- How many events the leaf makes of one that comes alone. -/
def copies (stage : Leaf) (event : Event) : Nat := ((stage.call [event] .off).1.getD []).length

theorem copies_eq {stage : Leaf} {count : Event → Nat} (spreads : Spreads [stage] count) :
    stage.copies = count := by
  funext event
  have alone : (stage.call [event] .off).1 = some (spread count [event]) := by
    rw [← spreads .off [event], rowOutcome_single stage .off (List.cons_ne_nil event [])]
    rfl
  simp [copies, alone]

theorem exists_spreads {stage : Leaf} (eventwise : stage.isEventwise = true) :
    ∃ count, Spreads [stage] count ∧ ∀ event, count event ≤ if stage.isLegacy then 2 else 1 := by
  have choice : ∀ (p : Event → Prop) [DecidablePred p] (event : Event), (if p event then 1 else 0) ≤ 1 := by
    intro p _ event
    split <;> omega
  cases stage with
  | warnings => exact ⟨_, spreads_warnings, choice _⟩
  | field which condition => exact ⟨_, spreads_field which condition, choice _⟩
  | kind filter =>
    refine ⟨filter.copiesOf, spreads_kind filter, ?_⟩
    intro event
    obtain ⟨mode, rules⟩ := filter
    cases mode with
    | legacy => exact KindFilter.copies_legacy_le rules _
    | exclusionFirst => exact KindFilter.copies_exclusionFirst_le rules _
  | window filter => cases eventwise
  | custom ownName tag keep => cases eventwise

theorem spreads_copies {stage : Leaf} (eventwise : stage.isEventwise = true) : Spreads [stage] stage.copies := by
  obtain ⟨count, spreads, _⟩ := exists_spreads eventwise
  rw [copies_eq spreads]
  exact spreads

theorem call_spread {stage : Leaf} (eventwise : stage.isEventwise = true) (events : List Event)
    (level : Level) : (stage.call events level).1 = some (spread stage.copies events) := by
  by_cases fed : events = []
  · rw [fed, spread_nil]
    cases stage with
    | warnings => rfl
    | field which condition => rfl
    | kind filter => rfl
    | window filter => cases eventwise
    | custom ownName tag keep => cases eventwise
  · rw [← spreads_copies eventwise level events, rowOutcome_single stage level fed]
    rfl

theorem copies_le {stage : Leaf} (eventwise : stage.isEventwise = true) (event : Event) :
    stage.copies event ≤ if stage.isLegacy then 2 else 1 := by
  obtain ⟨count, spreads, bounded⟩ := exists_spreads eventwise
  rw [copies_eq spreads]
  exact bounded event

/-! ## Leaves in a row -/

def rowCopies (stages : List Leaf) (event : Event) : Nat := (stages.map fun stage => stage.copies event).prod

theorem spreads_row {stages : List Leaf} (eventwise : ∀ stage ∈ stages, stage.isEventwise = true) :
    Spreads stages (rowCopies stages) := by
  induction stages with
  | nil => exact spreads_nil
  | cons stage rest ih =>
    obtain ⟨here, further⟩ := List.forall_mem_cons.1 eventwise
    have product : rowCopies (stage :: rest) = fun event => stage.copies event * rowCopies rest event := by
      funext event
      rw [rowCopies, List.map_cons, List.prod_cons]
      rfl
    rw [product]
    exact spreads_append (spreads_copies here) (ih further)

theorem rowCopies_perm {stages others : List Leaf} (perm : stages.Perm others) :
    rowCopies stages = rowCopies others := by
  funext event
  exact (perm.map _).prod_eq

theorem rowCopies_le_one {stages : List Leaf} (eventwise : ∀ stage ∈ stages, stage.isEventwise = true)
    (exclusionFirst : ∀ stage ∈ stages, stage.isLegacy = false) (event : Event) :
    rowCopies stages event ≤ 1 := by
  induction stages with
  | nil => exact Nat.le_refl 1
  | cons stage rest ih =>
    obtain ⟨here, further⟩ := List.forall_mem_cons.1 eventwise
    obtain ⟨once, others⟩ := List.forall_mem_cons.1 exclusionFirst
    have first := copies_le here event
    rw [once] at first
    exact Nat.mul_le_mul first (ih further others)

end Leaf

/-! ## Chains -/

namespace Filter

theorem run_spread {stages : List Filter} (eventwise : ∀ stage ∈ leavesAll stages, stage.isEventwise = true)
    (events : List Event) (level : Level) :
    (run (.chain stages) events level).1 = some (spread (Leaf.rowCopies (leavesAll stages)) events) := by
  rw [run_chain_result, Leaf.spreads_row eventwise]

theorem leavesAll_perm {stages others : List Filter} (perm : stages.Perm others) :
    (leavesAll stages).Perm (leavesAll others) := by
  rw [leavesAll_eq, leavesAll_eq]
  exact perm.flatMap_right leaves

/-- A chain without a window emits each event as often as the product of its leaves' own counts says,
    in order. It therefore does not matter how the leaves are ordered and nested, a run over two
    batches is that over both in a row, and without a legacy filter a second run changes nothing. -/
theorem run_eventwise (stages : List Filter)
    (eventwise : ∀ stage ∈ leaves (.chain stages), stage.isEventwise = true) (level : Level) :
    let result (stages : List Filter) (events : List Event) := (run (.chain stages) events level).1
    let copies (event : Event) := ((leaves (.chain stages)).map fun stage => stage.copies event).prod
    (∀ events, result stages events = some (events.flatMap fun event => List.replicate (copies event) event)) ∧
    (∀ stage ∈ leaves (.chain stages),
      (∀ event, stage.copies event ≤ if stage.isLegacy then 2 else 1) ∧
      ∀ events, (stage.call events level).1 =
        some (events.flatMap fun event => List.replicate (stage.copies event) event)) ∧
    (∀ others, stages.Perm others ∨ (leaves (.chain stages)).Perm (leaves (.chain others)) →
      ∀ events, result others events = result stages events) ∧
    (∀ first later, ∃ kept more, result stages first = some kept ∧ result stages later = some more ∧
      result stages (first ++ later) = some (kept ++ more)) ∧
    ((∀ stage ∈ leaves (.chain stages), stage.isLegacy = false) →
      ∀ events kept, result stages events = some kept → result stages kept = some kept) := by
  intro result copies
  have spreads : ∀ events, result stages events = some (spread copies events) :=
    fun events => run_spread eventwise events level
  refine ⟨spreads, ?_, ?_, ?_, ?_⟩
  · intro stage member
    have alone := eventwise stage member
    exact ⟨Leaf.copies_le alone, fun events => Leaf.call_spread alone events level⟩
  · intro others rearranged events
    have perm : (leavesAll stages).Perm (leavesAll others) := rearranged.elim leavesAll_perm id
    have alike : ∀ stage ∈ leavesAll others, stage.isEventwise = true :=
      fun stage member => eventwise stage (perm.mem_iff.2 member)
    rw [spreads]
    exact (run_spread alike events level).trans (by rw [← Leaf.rowCopies_perm perm]; rfl)
  · intro first later
    refine ⟨_, _, spreads first, spreads later, ?_⟩
    rw [spreads, spread_append]
  · intro exclusionFirst events kept found
    obtain rfl : spread copies events = kept := Option.some.inj ((spreads events).symm.trans found)
    have once : ∀ event, copies event * copies event = copies event := by
      intro event
      have atMost : copies event ≤ 1 := Leaf.rowCopies_le_one eventwise exclusionFirst event
      obtain zero | one : copies event = 0 ∨ copies event = 1 := by omega
      · rw [zero]
      · rw [one]
    rw [spreads, spread_spread, funext once]

/-- A legacy filter inside emits a warning about a pod twice, and the filter on severity keeps both. -/
theorem run_eventwise_pod :
    let kinds : KindFilter := ⟨.legacy, [Rule.ofKey ⟨"", "Pod"⟩, Rule.ofKey ⟨"*", "*"⟩]⟩
    let stages := [chain [.leaf (.kind kinds), chain []], .leaf .warnings]
    let event : Event := { place := 0, severity := .warning, subject := { kind := "Pod", apiVersion := "v1" } }
    (∀ stage ∈ leaves (.chain stages), stage.isEventwise = true) ∧
    (run (.chain stages) [event] .info).1 = some [event, event] := by
  intro kinds stages event
  have eventwise : ∀ stage ∈ leaves (.chain stages), stage.isEventwise = true := by
    simp [stages, leaves, leavesAll, Leaf.isEventwise]
  have emitted := (run_eventwise stages eventwise .info).1 [event]
  refine ⟨eventwise, emitted.trans ?_⟩
  decide +kernel

end Filter

end EventSieve
