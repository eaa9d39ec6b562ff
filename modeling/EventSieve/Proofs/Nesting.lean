import EventSieve.Proofs.Outcome

/-!
Nesting of chains makes no difference to the leaves. By induction over filters,
one that gets events comes to what its leaves in a row come to, and a chain does
so without events too. How a chain was put together does not matter either:
filters may be given to it first or added later, and missing ones leave no
trace in its leaves.
-/

namespace EventSieve

namespace Filter

/-- Turns of filters have the outcome of their leaves if each filter has, where it gets events. -/
theorem runFrom_outcome (stages : List Filter) (level : Level)
    (each : ∀ stage ∈ stages, ∀ events, events ≠ [] →
      Run.outcome stage.run level events = Leaf.rowOutcome stage.leaves level events)
    (position : Nat) (events : List Event) :
    Run.outcome (Chain.runFrom name run position stages) level events =
      Leaf.rowOutcome (leavesAll stages) level events := by
  induction stages generalizing position events with
  | nil => rfl
  | cons stage rest ih =>
    obtain ⟨here, further⟩ := List.forall_mem_cons.1 each
    simp only [Chain.runFrom, Chain.turn_outcome]
    -- A leaf differs from a row of one where it gets no events, so `each` says nothing of that case;
    -- the turn does not ask the stage then.
    by_cases fed : events = []
    · rw [if_pos fed, fed, Leaf.rowOutcome_nil]
    · rw [if_neg fed, here events fed, leavesAll, Leaf.rowOutcome_append]
      exact congrArg _ (funext (ih further (position + 1)))

theorem chain_outcome (stages : List Filter) (level : Level) (events : List Event) :
    Run.outcome (run (.chain stages)) level events =
      Run.outcome (Chain.runFrom name run 0 stages) level events := by
  simp only [Run.outcome, run_chain, Journal.work_append]
  exact Prod.ext rfl (Journal.empty_append _)

/-- A filter that gets events has the outcome of its leaves. -/
theorem run_outcome (filter : Filter) (level : Level) :
    ∀ events, events ≠ [] → Run.outcome filter.run level events = Leaf.rowOutcome filter.leaves level events := by
  induction filter with
  | leaf stage =>
    intro events fed
    exact (Leaf.rowOutcome_single stage level fed).symm
  | chain stages ih =>
    intro events _
    rw [chain_outcome, runFrom_outcome stages level ih, leaves]

/-- A chain has the outcome of its leaves, whether it gets events or not. -/
theorem run_chain_outcome (stages : List Filter) (level : Level) (events : List Event) :
    Run.outcome (run (.chain stages)) level events = Leaf.rowOutcome (leavesAll stages) level events := by
  rw [chain_outcome, runFrom_outcome stages level fun stage _ => run_outcome stage level]

theorem run_chain_result (stages : List Filter) (level : Level) (events : List Event) :
    (run (.chain stages) events level).1 = (Leaf.rowOutcome (leavesAll stages) level events).1 :=
  congrArg (fun outcome => outcome.1) (run_chain_outcome stages level events)

theorem leavesAll_map_leaf (stages : List Leaf) : leavesAll (stages.map .leaf) = stages := by
  simp [leavesAll_eq, List.flatMap_map, leaves]

end Filter

/-! ## Assembled chains -/

/-- A filter as it is put together: a chain is made of the filters given to it, in which places may
    be missing, and then further ones, or missing ones, are added to it. -/
inductive Assembly
  | missing
  | leaf (stage : Leaf)
  | chain (given added : List Assembly)

namespace Assembly

mutual

/-- The filter that is put together, if it is not missing. -/
def build : Assembly → Logged (Option Filter)
  | .missing => return none
  | .leaf stage => do
    stage.announce
    return some (.leaf stage)
  | .chain given added => do
    let entries ← buildAll given
    let stages ← Chain.addAll [] entries
    let stages ← addEach stages added
    return some (.chain stages)

def buildAll : List Assembly → Logged (List (Option Filter))
  | [] => return []
  | part :: rest => do
    let entry ← build part
    let entries ← buildAll rest
    return entry :: entries

/-- The stages of a chain to which further filters are added, each when it is put together. -/
def addEach (stages : List Filter) : List Assembly → Logged (List Filter)
  | [] => return stages
  | part :: rest => do
    let entry ← build part
    let stages ← Chain.add stages entry
    addEach stages rest

end

mutual

/-- The leaves from left to right; a missing filter has none. -/
def leaves : Assembly → List Leaf
  | .missing => []
  | .leaf stage => [stage]
  | .chain given added => leavesAll given ++ leavesAll added

def leavesAll : List Assembly → List Leaf
  | [] => []
  | part :: rest => leaves part ++ leavesAll rest

end

/-- Induction over assemblies, where a chain has the property when all that it is made of has it. -/
@[elab_as_elim, induction_eliminator]
theorem induction {motive : Assembly → Prop} (missing : motive .missing)
    (leaf : ∀ stage, motive (.leaf stage))
    (chain : ∀ given added, (∀ part ∈ given, motive part) → (∀ part ∈ added, motive part) →
      motive (.chain given added)) :
    ∀ assembly, motive assembly :=
  @Assembly.rec motive (fun parts => ∀ part ∈ parts, motive part) missing leaf chain
    (fun _ member => absurd member List.not_mem_nil)
    (fun _ _ here further => List.forall_mem_cons.2 ⟨here, further⟩)

/-- The filter that is put together has the leaves of the assembly. -/
def Keeps (level : Level) (assembly : Assembly) : Prop :=
  (build assembly level).1.toList.flatMap Filter.leaves = assembly.leaves

theorem buildAll_leaves {level : Level} {parts : List Assembly} (each : ∀ part ∈ parts, Keeps level part) :
    ((buildAll parts level).1.flatMap Option.toList).flatMap Filter.leaves = leavesAll parts := by
  induction parts with
  | nil => rfl
  | cons part rest ih =>
    obtain ⟨here, further⟩ := List.forall_mem_cons.1 each
    unfold Keeps at here
    simp [buildAll, leavesAll, ih further, here]

theorem addEach_leaves {level : Level} {parts : List Assembly} (each : ∀ part ∈ parts, Keeps level part)
    (stages : List Filter) :
    (addEach stages parts level).1.flatMap Filter.leaves =
      stages.flatMap Filter.leaves ++ leavesAll parts := by
  induction parts generalizing stages with
  | nil => simp [addEach, leavesAll]
  | cons part rest ih =>
    obtain ⟨here, further⟩ := List.forall_mem_cons.1 each
    unfold Keeps at here
    simp [addEach, leavesAll, ih further, Chain.add_result, here]

theorem build_leaves (assembly : Assembly) (level : Level) : Keeps level assembly := by
  induction assembly with
  | missing => rfl
  | leaf stage => simp [Keeps, build, leaves, Filter.leaves]
  | chain given added ofGiven ofAdded =>
    have before := buildAll_leaves ofGiven
    have after := addEach_leaves ofAdded (Chain.addAll [] (buildAll given level).1 level).1
    simp only [Chain.addAll_result, List.nil_append, before] at after
    simpa [Keeps, build, leaves, Filter.leaves, Filter.leavesAll_eq, Chain.addAll_result] using after

/-- A chain that is put together has the outcome of the one chain of its leaves. -/
theorem exists_root (given added : List Assembly) (atBuild : Level) :
    ∃ root, (build (.chain given added) atBuild).1 = some root ∧ ∀ (atRun : Level) (events : List Event),
      Run.outcome root.run atRun events =
        Run.outcome (Filter.run (.chain ((leaves (.chain given added)).map .leaf))) atRun events := by
  obtain ⟨stages, built⟩ : ∃ stages, (build (.chain given added) atBuild).1 = some (.chain stages) := by
    simp [build]
  have kept := build_leaves (.chain given added) atBuild
  rw [Keeps, built] at kept
  have sameLeaves : Filter.leavesAll stages = leaves (.chain given added) := by
    simpa [Filter.leaves] using kept
  refine ⟨.chain stages, built, fun atRun events => ?_⟩
  rw [Filter.run_chain_outcome, Filter.run_chain_outcome, Filter.leavesAll_map_leaf, sameLeaves]

/-- Nesting is transparent: a chain put together from chains and leaves in any way returns what the
    one chain of its leaves returns, and the same leaves are called in the same order on the same
    events. -/
theorem nested_run_eq_flat_run (given added : List Assembly) (atBuild atRun : Level)
    (events : List Event) :
    ∃ root, (build (.chain given added) atBuild).1 = some root ∧
      let flat := Filter.chain ((leaves (.chain given added)).map .leaf)
      (root.run events atRun).1 = (flat.run events atRun).1 ∧
      (root.run events atRun).2.leafCalls = (flat.run events atRun).2.leafCalls := by
  obtain ⟨root, built, same⟩ := exists_root given added atBuild
  refine ⟨root, built, congrArg (fun outcome => outcome.1) (same atRun events), ?_⟩
  exact congrArg (fun outcome => outcome.2.calls) (same atRun events)

end Assembly

/-! ## Planned chains -/

namespace Plan

mutual

/-- A plan as an assembly in which nothing is added later. -/
def assembly : Plan → Assembly
  | .missing => .missing
  | .leaf stage => .leaf stage
  | .chain parts => .chain (assemblies parts) []

def assemblies : List Plan → List Assembly
  | [] => []
  | part :: rest => assembly part :: assemblies rest

end

mutual

theorem build_assembly : ∀ plan : Plan, plan.assembly.build = plan.build
  | .missing => rfl
  | .leaf _ => rfl
  | .chain parts => by
    simp [assembly, Assembly.build, build, Assembly.addEach, buildAll_assemblies parts]

theorem buildAll_assemblies : ∀ parts : List Plan, Assembly.buildAll (assemblies parts) = buildAll parts
  | [] => rfl
  | part :: rest => by
    simp [assemblies, Assembly.buildAll, buildAll, build_assembly part, buildAll_assemblies rest]

end

/-- A planned chain returns what the one chain of its leaves returns, and calls the same leaves. -/
theorem build_outcome (parts : List Plan) (atBuild : Level) :
    ∃ root, (build (.chain parts) atBuild).1 = some root ∧ ∀ (atRun : Level) (events : List Event),
      Run.outcome root.run atRun events =
        Run.outcome (Filter.run (.chain ((assembly (.chain parts)).leaves.map .leaf))) atRun events := by
  rw [← build_assembly]
  exact Assembly.exists_root (assemblies parts) [] atBuild

end Plan

end EventSieve
