import EventSieve.Filter
import EventSieve.Proofs.Stage

/-!
What one turn of a chain does. It ends the chain when nothing is left, aborts it
when the stage could not run, and hands on what the stage kept otherwise
(`turn_nil`, `turn_absent`, `turn_kept`). A chain that holds filters is run by
the same turns as a chain of anything else, and what holds of leaves and passes
from the stages of a chain to the chain holds of every filter
(`Filter.induction`).
-/

namespace EventSieve

namespace Chain
variable {σ : Type}

/-! ## One turn -/

section
variable (name : String) (position left : Nat) (stage further : Run)

theorem turn_nil (level : Level) :
    turn name position left stage further [] level =
      (some [], (Logged.note (.stagesSkipped left) level).2) := by
  simp [turn]

theorem turn_absent {events : List Event} {level : Level} (fed : events ≠ [])
    (absent : (stage events level).1 = none) :
    turn name position left stage further events level =
      (none, (stage events level).2.enclosed ++ (Logged.note (.chainAborted name position) level).2) := by
  have more : events.isEmpty = false := by simpa using fed
  simp [turn, more, absent]

theorem turn_kept {events kept : List Event} {level : Level} (fed : events ≠ [])
    (present : (stage events level).1 = some kept) :
    turn name position left stage further events level =
      ((further kept level).1, (stage events level).2.enclosed ++
        ((Logged.note (.stageApplied name events.length kept.length) level).2 ++
          (further kept level).2)) := by
  have more : events.isEmpty = false := by simpa using fed
  simp [turn, more, present]

end

/-- Stages that are run as others are, under the same names, make the same chain. -/
theorem runFrom_map {τ : Type} {name : σ → String} {run : σ → Run} {otherName : τ → String}
    {otherRun : τ → Run} (f : σ → τ) {stages : List σ}
    (same : ∀ stage ∈ stages, name stage = otherName (f stage) ∧ run stage = otherRun (f stage))
    (position : Nat) :
    runFrom name run position stages = runFrom otherName otherRun position (stages.map f) := by
  induction stages generalizing position with
  | nil => rfl
  | cons stage rest ih =>
    obtain ⟨here, further⟩ := List.forall_mem_cons.1 same
    rw [List.map_cons, runFrom, runFrom, here.1, here.2, ih further, List.length_map]

/-! ## Adding stages -/

theorem add_result (stages : List σ) (entry : Option σ) (level : Level) :
    (add stages entry level).1 = stages ++ entry.toList := by
  cases entry <;> simp [add]

theorem addAll_result (stages : List σ) (entries : List (Option σ)) (level : Level) :
    (addAll stages entries level).1 = stages ++ entries.flatMap Option.toList := by
  induction entries generalizing stages with
  | nil => simp [addAll]
  | cons entry rest ih =>
    cases entry <;> simp [addAll, ih, add_result]

end Chain

namespace Filter

/-- Induction over filters, where a chain has the property when all its stages have it. -/
@[elab_as_elim, induction_eliminator]
theorem induction {motive : Filter → Prop} (leaf : ∀ stage, motive (.leaf stage))
    (chain : ∀ stages, (∀ stage ∈ stages, motive stage) → motive (.chain stages)) :
    ∀ filter, motive filter :=
  @Filter.rec motive (fun stages => ∀ stage ∈ stages, motive stage) leaf chain
    (fun _ member => absurd member List.not_mem_nil)
    (fun _ _ here further => List.forall_mem_cons.2 ⟨here, further⟩)

theorem runFrom_eq (position : Nat) (stages : List Filter) :
    runFrom position stages = Chain.runFrom name run position stages := by
  induction stages generalizing position with
  | nil => rfl
  | cons stage rest ih => rw [runFrom, Chain.runFrom, ih]

theorem run_chain (stages : List Filter) (events : List Event) (level : Level) :
    run (.chain stages) events level =
      ((Chain.runFrom name run 0 stages events level).1,
        { calls := [⟨.chain, events⟩] } ++ (Chain.runFrom name run 0 stages events level).2) := by
  rw [run, runFrom_eq]
  rfl

mutual

/-- The leaves of a filter, from left to right. -/
def leaves : Filter → List Leaf
  | .leaf stage => [stage]
  | .chain stages => leavesAll stages

def leavesAll : List Filter → List Leaf
  | [] => []
  | stage :: rest => leaves stage ++ leavesAll rest

end

theorem leavesAll_eq (stages : List Filter) : leavesAll stages = stages.flatMap leaves := by
  induction stages with
  | nil => rfl
  | cons stage rest ih => rw [leavesAll, ih, List.flatMap_cons]

theorem leaves_subset {stage : Filter} {stages : List Filter} (member : stage ∈ stages) :
    stage.leaves ⊆ leavesAll stages := by
  intro leaf known
  rw [leavesAll_eq]
  exact List.mem_flatMap.2 ⟨stage, member, known⟩

end Filter

end EventSieve
