import EventSieve.Proofs.Nesting
import EventSieve.Store
import Mathlib.Data.Set.Card
import Mathlib.Logic.Relation

/-!
Shared chains without cycles. Chains of a store hold each other, so what a chain
holds is followed by induction on how many chains lie below (`rank`). Held stages
expand into leaves, every chain into the stages that it has at that moment, and a
chain of the store returns what the one chain of these leaves returns. An
addition changes one chain, and with it all that hold it: its leaves appear
behind that chain's own wherever the chain is met.
-/

namespace EventSieve

namespace Store

/-! ## What chains hold -/

/-- A chain has another one among its stages. -/
def Holds (store : Store) (outer inner : Nat) : Prop := Held.chain inner ∈ store.stages outer

/-- Chains hold chains of the store only, and none holds itself, through however many others. -/
structure Acyclic (store : Store) : Prop where
  known : ∀ outer inner, store.Holds outer inner → inner < store.chains.length
  loopless : ∀ number, ¬ Relation.TransGen store.Holds number number

theorem stages_of_unknown {store : Store} {number : Nat} (unknown : store.chains.length ≤ number) :
    store.stages number = [] := by
  rw [stages, List.getD_eq_getElem?_getD, List.getElem?_eq_none unknown, Option.getD_none]

/-- Where chains hold only such as come before them, there is no cycle. -/
theorem acyclic_of_lt {store : Store} (lower : ∀ outer inner, store.Holds outer inner → inner < outer) :
    store.Acyclic := by
  have below : ∀ {outer inner}, Relation.TransGen store.Holds outer inner → inner < outer := by
    intro outer inner path
    induction path with
    | single holds => exact lower _ _ holds
    | tail _ holds ih => exact Nat.lt_trans (lower _ _ holds) ih
  refine ⟨?_, fun number path => Nat.lt_irrefl number (below path)⟩
  intro outer inner holds
  by_contra unknown
  have before := lower outer inner holds
  rw [Holds, stages_of_unknown (by omega)] at holds
  cases holds

/-- The chains that lie below a chain. -/
def below (store : Store) (number : Nat) : Set Nat := {inner | Relation.TransGen store.Holds number inner}

/-- How many chains are met in what is held. -/
noncomputable def rank (store : Store) : Held → Nat
  | .leaf _ => 0
  | .chain number => (store.below number).ncard + 1

theorem below_subset {store : Store} (acyclic : store.Acyclic) (number : Nat) :
    store.below number ⊆ Finset.range store.chains.length := by
  intro inner path
  obtain ⟨outer, _, holds⟩ := Relation.TransGen.tail'_iff.1 path
  exact Finset.mem_coe.2 (Finset.mem_range.2 (acyclic.known outer inner holds))

theorem rank_le {store : Store} (acyclic : store.Acyclic) (held : Held) :
    store.rank held ≤ store.chains.length + 1 := by
  cases held with
  | leaf stage => exact Nat.zero_le _
  | chain number =>
    have atMost := Set.ncard_le_ncard (below_subset acyclic number) (Finset.finite_toSet _)
    rw [Set.ncard_coe_finset, Finset.card_range] at atMost
    exact Nat.succ_le_succ atMost

/-- Stages of a chain rank below it. -/
theorem rank_stage {store : Store} (acyclic : store.Acyclic) {number : Nat} {stage : Held}
    (member : stage ∈ store.stages number) : store.rank stage < store.rank (.chain number) := by
  cases stage with
  | leaf stage => exact Nat.succ_pos _
  | chain inner =>
    have holds : store.Holds number inner := member
    have finite : (store.below number).Finite := (Finset.finite_toSet _).subset (below_subset acyclic number)
    have smaller : store.below inner ⊂ store.below number := by
      refine (Set.ssubset_iff_of_subset fun _ path => Relation.TransGen.head holds path).2 ?_
      exact ⟨inner, Relation.TransGen.single holds, acyclic.loopless inner⟩
    exact Nat.succ_lt_succ (Set.ncard_lt_ncard smaller finite)

/-- Of a depth that is sufficient for a chain, one less is sufficient for its stages. -/
theorem exists_depth_stages {store : Store} (acyclic : store.Acyclic) {number depth : Nat}
    (deep : store.rank (.chain number) ≤ depth) :
    ∃ inner, depth = inner + 1 ∧ ∀ stage ∈ store.stages number, store.rank stage ≤ inner := by
  cases depth with
  | zero => exact absurd deep (Nat.not_succ_le_zero _)
  | succ inner =>
    refine ⟨inner, rfl, fun stage member => ?_⟩
    exact Nat.le_of_lt_succ (Nat.lt_of_lt_of_le (rank_stage acyclic member) deep)

/-- Induction over what is held, where a chain has the property when all its stages have it. -/
theorem Acyclic.induction {store : Store} (acyclic : store.Acyclic) {motive : Held → Prop}
    (leaf : ∀ stage, motive (.leaf stage))
    (chain : ∀ number, (∀ stage ∈ store.stages number, motive stage) → motive (.chain number))
    (held : Held) : motive held := by
  induction rank : store.rank held using Nat.strong_induction_on generalizing held with
  | _ bound ih =>
    cases held with
    | leaf stage => exact leaf stage
    | chain number =>
      refine chain number fun stage member => ih (store.rank stage) ?_ stage rfl
      rw [← rank]
      exact rank_stage acyclic member

/-! ## Expansion into leaves -/

/-- The leaves that stages come to when every chain is expanded into its stages; behind those of each
    chain stand further leaves. -/
inductive ExpandsWith (store : Store) (further : Nat → List Leaf) : List Held → List Leaf → Prop
  | nil : ExpandsWith store further [] []
  | leaf {rest : List Held} {leaves : List Leaf} (stage : Leaf) :
      ExpandsWith store further rest leaves → ExpandsWith store further (.leaf stage :: rest) (stage :: leaves)
  | chain {rest : List Held} {inner leaves : List Leaf} (number : Nat) :
      ExpandsWith store further (store.stages number) inner → ExpandsWith store further rest leaves →
        ExpandsWith store further (.chain number :: rest) (inner ++ further number ++ leaves)

/-- The leaves that stages come to when every chain is expanded into its stages. -/
def Expands (store : Store) : List Held → List Leaf → Prop := store.ExpandsWith fun _ => []

section
variable {store : Store} {further : Nat → List Leaf}

theorem ExpandsWith.unique {stages : List Held} {leaves others : List Leaf}
    (first : store.ExpandsWith further stages leaves) (second : store.ExpandsWith further stages others) :
    leaves = others := by
  induction first generalizing others with
  | nil =>
    cases second
    rfl
  | leaf stage _ ih =>
    cases second with
    | leaf _ rest => rw [ih rest]
  | chain number _ _ ofInner ofRest =>
    cases second with
    | chain _ inner rest => rw [ofInner inner, ofRest rest]

theorem ExpandsWith.append {first later : List Held} {leaves others : List Leaf}
    (here : store.ExpandsWith further first leaves) (there : store.ExpandsWith further later others) :
    store.ExpandsWith further (first ++ later) (leaves ++ others) := by
  induction here with
  | nil => exact there
  | leaf stage _ ih => exact .leaf stage ih
  | chain number inner _ _ ih =>
    rw [List.append_assoc]
    exact .chain number inner ih

theorem ExpandsWith.flatMap {f : Held → List Leaf} {stages : List Held}
    (each : ∀ stage ∈ stages, store.ExpandsWith further [stage] (f stage)) :
    store.ExpandsWith further stages (stages.flatMap f) := by
  induction stages with
  | nil => exact .nil
  | cons stage rest ih =>
    obtain ⟨here, later⟩ := List.forall_mem_cons.1 each
    exact here.append (ih later)

/-- A chain comes to what its stages come to, and what stands behind them. -/
theorem expandsWith_chain {number : Nat} {leaves : List Leaf} :
    store.ExpandsWith further [.chain number] leaves ↔
      ∃ inner, store.ExpandsWith further (store.stages number) inner ∧ leaves = inner ++ further number := by
  constructor
  · intro expands
    cases expands with
    | chain _ inner none =>
      cases none
      exact ⟨_, inner, List.append_nil _⟩
  · rintro ⟨inner, expands, rfl⟩
    have alone := ExpandsWith.chain number expands .nil
    rwa [List.append_nil] at alone

end

theorem expands_chain {store : Store} {number : Nat} {leaves : List Leaf} :
    store.Expands [.chain number] leaves ↔ store.Expands (store.stages number) leaves := by
  simp [Expands, expandsWith_chain]

/-! ## Runs -/

theorem name_treeWithin (store : Store) (depth : Nat) (held : Held) :
    held.name = (store.treeWithin depth held).name := by
  cases held with
  | leaf stage => cases depth <;> rfl
  | chain number => cases depth <;> rfl

/-- Within a sufficient depth what is held is run as its tree, with the same trace. -/
theorem runWithin_eq {store : Store} (acyclic : store.Acyclic) (held : Held) (depth : Nat)
    (deep : store.rank held ≤ depth) : store.runWithin depth held = (store.treeWithin depth held).run := by
  induction held using acyclic.induction generalizing depth with
  | leaf stage => cases depth <;> rfl
  | chain number ih =>
    obtain ⟨depth, rfl, within⟩ := exists_depth_stages acyclic deep
    have stages : Chain.runFrom Held.name (store.runWithin depth) 0 (store.stages number) =
        Chain.runFrom Filter.name Filter.run 0 ((store.stages number).map (store.treeWithin depth)) := by
      refine Chain.runFrom_map _ (fun stage member => ⟨store.name_treeWithin depth stage, ?_⟩) 0
      exact ih stage member depth (within stage member)
    funext events
    rw [runWithin, treeWithin, Filter.run, Filter.runFrom_eq, stages]

/-- The leaves of the tree are those of the expansion. -/
theorem expands_treeWithin {store : Store} (acyclic : store.Acyclic) (held : Held) (depth : Nat)
    (deep : store.rank held ≤ depth) : store.Expands [held] (store.treeWithin depth held).leaves := by
  induction held using acyclic.induction generalizing depth with
  | leaf stage => cases depth <;> exact .leaf stage .nil
  | chain number ih =>
    obtain ⟨depth, rfl, within⟩ := exists_depth_stages acyclic deep
    have stages : store.Expands (store.stages number)
        ((store.stages number).flatMap fun stage => (store.treeWithin depth stage).leaves) :=
      .flatMap fun stage member => ih stage member depth (within stage member)
    rw [treeWithin, Filter.leaves, Filter.leavesAll_eq, List.flatMap_map]
    exact expands_chain.2 stages

/-- The depth to which runs of a store go is sufficient for all that is held without cycles. -/
theorem rank_le_depth {store : Store} (acyclic : store.Acyclic) (held : Held) :
    store.rank held ≤ store.chains.length + reentries :=
  Nat.le_trans (rank_le acyclic held) (Nat.add_le_add_left (by decide) _)

/-- A chain of the store has the outcome of the one chain of its leaves. -/
theorem run_outcome {store : Store} (acyclic : store.Acyclic) {number : Nat} {leaves : List Leaf}
    (expands : store.Expands (store.stages number) leaves) (level : Level) (events : List Event) :
    Run.outcome (store.run (.chain number)) level events =
      Run.outcome (Filter.run (.chain (leaves.map .leaf))) level events := by
  have deep := rank_le_depth acyclic (.chain number)
  have known := expands_treeWithin acyclic (.chain number) _ deep
  rw [run, runWithin_eq acyclic (.chain number) _ deep]
  rw [Filter.run_chain_outcome, Filter.leavesAll_map_leaf, expands.unique (expands_chain.1 known)]
  exact Filter.run_chain_outcome _ level events

/-! ## Additions -/

theorem add_result (store : Store) (number : Nat) (entry : Option Held) (level : Level) :
    (store.add number entry level).1 = store.setStages number (store.stages number ++ entry.toList) := by
  simp [add, Chain.add_result]

theorem stages_setStages {store : Store} {number : Nat} (known : number < store.chains.length)
    (stages : List Held) (other : Nat) :
    (store.setStages number stages).stages other = if other = number then stages else store.stages other := by
  simp only [Store.stages, setStages, List.getD_eq_getElem?_getD, List.getElem?_set]
  grind

/-- What an addition to a chain does to the store: the chain gets one stage at its end, or none where
    it is missing, and no other chain is changed; the leaves of what is added, as the store then is,
    appear behind the leaves of that chain at every place where it is met, and nowhere else. -/
structure Added (store : Store) (number : Nat) (entry : Option Held) (next : Store) : Prop where
  count : next.chains.length = store.chains.length
  here : next.stages number = store.stages number ++ entry.toList
  elsewhere : ∀ other, other ≠ number → next.stages other = store.stages other
  everywhere : ∃ new, next.Expands entry.toList new ∧
    ∀ stages leaves, next.Expands stages leaves ↔
      store.ExpandsWith (fun chain => if chain = number then new else []) stages leaves

/-- Everything held has leaves, and stages in a row have theirs in a row. -/
theorem Acyclic.expansions {store : Store} (acyclic : store.Acyclic) :
    ∃ leaves : Held → List Leaf, ∀ stages, store.Expands stages (stages.flatMap leaves) :=
  ⟨fun held => (store.treeWithin (store.chains.length + 1) held).leaves, fun _ =>
    .flatMap fun held _ => expands_treeWithin acyclic held _ (rank_le acyclic held)⟩

/-- Where one chain has got another stage, the leaves of that stage appear behind this chain. -/
theorem expands_added {store next : Store} {number : Nat} {entry : Option Held} (acyclic : next.Acyclic)
    (here : next.stages number = store.stages number ++ entry.toList)
    (elsewhere : ∀ other, other ≠ number → next.stages other = store.stages other) :
    ∃ new, next.Expands entry.toList new ∧
      ∀ stages leaves, next.Expands stages leaves ↔
        store.ExpandsWith (fun chain => if chain = number then new else []) stages leaves := by
  obtain ⟨leaves, now⟩ := acyclic.expansions
  have each (held : Held) : next.Expands [held] (leaves held) := by simpa using now [held]
  have before (held : Held) : store.ExpandsWith
      (fun chain => if chain = number then entry.toList.flatMap leaves else []) [held] (leaves held) := by
    -- The induction is over the store after the addition: before it, what is added need not lie
    -- below the chain.
    induction held using acyclic.induction with
    | leaf stage =>
      rw [(each (.leaf stage)).unique (.leaf stage .nil)]
      exact .leaf stage .nil
    | chain other ih =>
      rw [(expands_chain.1 (each (.chain other))).unique (now _), expandsWith_chain]
      by_cases same : other = number
      · subst same
        rw [here] at ih ⊢
        refine ⟨_, .flatMap fun stage member => ih stage (List.mem_append_left _ member), ?_⟩
        rw [if_pos rfl, List.flatMap_append]
      · rw [elsewhere other same] at ih ⊢
        exact ⟨_, .flatMap ih, by rw [if_neg same, List.append_nil]⟩
  refine ⟨entry.toList.flatMap leaves, now _, fun stages found => ⟨fun expands => ?_, fun expands => ?_⟩⟩
  · rw [expands.unique (now stages)]
    exact .flatMap fun held _ => before held
  · rw [expands.unique (.flatMap fun held _ => before held)]
    exact now stages

/-- An addition that leaves no cycle changes one chain, and takes effect wherever it is held. -/
theorem add_added {store : Store} {number : Nat} (known : number < store.chains.length)
    (entry : Option Held) (level : Level) (acyclic : (store.add number entry level).1.Acyclic) :
    store.Added number entry (store.add number entry level).1 := by
  rw [add_result] at acyclic ⊢
  have after := stages_setStages known (store.stages number ++ entry.toList)
  have here := (after number).trans (if_pos rfl)
  have elsewhere := fun other (different : other ≠ number) => (after other).trans (if_neg different)
  exact ⟨List.length_set, here, elsewhere, expands_added acyclic here elsewhere⟩

/-! ## Uses -/

/-- What is done with a chain of a store. -/
inductive Use
  | add (number : Nat) (entry : Option Held)
  | filter (number : Nat) (events : List Event)

def Use.number : Use → Nat
  | .add number _ => number
  | .filter number _ => number

/-- The results of the runs among the uses, in order, and the store after all of them. -/
def performAll (store : Store) : List Use → Logged (List (Option (List Event)) × Store)
  | [] => return ([], store)
  | .add number entry :: rest => do
    let store ← store.add number entry
    performAll store rest
  | .filter number events :: rest => do
    let result ← store.run (.chain number) events
    let (results, store) ← performAll store rest
    return (result :: results, store)

/-- Results of uses, one after another. An addition does what `Added` tells. A run leaves every chain
    as it is, and its result is that of the one chain of the leaves, the only ones, that the chain
    comes to at that moment. -/
inductive Served (level : Level) : Store → List Use → List (Option (List Event)) → Store → Prop
  | done (store : Store) : Served level store [] [] store
  | add {store next last : Store} {number : Nat} {entry : Option Held} {rest : List Use}
      {results : List (Option (List Event))} :
      store.Added number entry next → Served level next rest results last →
        Served level store (.add number entry :: rest) results last
  | filter {store last : Store} {number : Nat} {events : List Event} {leaves : List Leaf} {rest : List Use}
      {results : List (Option (List Event))} :
      (∀ others, store.Expands (store.stages number) others ↔ others = leaves) →
        Served level store rest results last →
          Served level store (.filter number events :: rest)
            ((Filter.run (.chain (leaves.map .leaf)) events level).1 :: results) last

/-- Any additions and runs serve as the leaves of the moment say, while no cycle comes about. -/
theorem performAll_served (level : Level) (uses : List Use) (store : Store)
    (known : ∀ use ∈ uses, use.number < store.chains.length)
    (acyclic : ∀ before, before <+: uses → (store.performAll before level).1.2.Acyclic) :
    Served level store uses (store.performAll uses level).1.1 (store.performAll uses level).1.2 := by
  induction uses generalizing store with
  | nil => exact .done store
  | cons use rest ih =>
    obtain ⟨here, further⟩ := List.forall_mem_cons.1 known
    have later : ∀ before, before <+: rest → (store.performAll (use :: before) level).1.2.Acyclic :=
      fun before initial => acyclic _ ((List.prefix_cons_inj use).2 initial)
    cases use with
    | add number entry =>
      have added := add_added here entry level (later [] List.nil_prefix)
      rw [← added.count] at further
      exact .add added (ih _ further later)
    | filter number events =>
      have now : store.Acyclic := acyclic [] List.nil_prefix
      obtain ⟨leaves, expansions⟩ := now.expansions
      have expands := expansions (store.stages number)
      have result : (store.run (.chain number) events level).1 = _ :=
        congrArg (fun outcome => outcome.1) (run_outcome now expands level events)
      have only : ∀ others, store.Expands (store.stages number) others ↔ others = _ :=
        fun others => ⟨fun other => other.unique expands, fun same => same ▸ expands⟩
      have served := ih store further later
      simp only [performAll, Logged.bind_apply, Logged.pure_apply, result]
      exact .filter only served

/-- A filter on severity is added to a chain that the last one holds once itself and twice through
    another chain. -/
theorem performAll_served_warnings :
    let store : Store := ⟨[[], [.chain 0, .chain 0], [.chain 1, .chain 0]]⟩
    let events : List Event := [{ place := 0 }, { place := 1, severity := .warning }]
    let uses : List Use :=
      [.filter 2 events, .add 0 (some (.leaf .warnings)), .add 1 none, .filter 2 events]
    (∀ use ∈ uses, use.number < store.chains.length) ∧
    (∀ before, before <+: uses → (store.performAll before .info).1.2.Acyclic) ∧
    ∃ last, Served .info store uses [some events, some events.tail] last := by
  intro store events uses
  have known : ∀ use ∈ uses, use.number < store.chains.length := by
    simp [uses, store, Use.number]
  have ordered (stages : List Held) (simple : ∀ inner, .chain inner ∉ stages) :
      Store.Acyclic ⟨[stages, [.chain 0, .chain 0], [.chain 1, .chain 0]]⟩ := by
    refine acyclic_of_lt fun outer inner holds => ?_
    match outer, holds with
    | 0, holds => exact absurd holds (simple inner)
    | 1, holds => simp_all [Holds, Store.stages]
    | 2, holds => simp_all [Holds, Store.stages]; omega
  have acyclic : ∀ before, before <+: uses → (store.performAll before .info).1.2.Acyclic := by
    intro before initial
    simp only [uses, List.prefix_cons_iff, List.prefix_nil] at initial
    rcases initial with rfl | ⟨_, rfl, rfl | ⟨_, rfl, rfl | ⟨_, rfl, rfl | ⟨_, rfl, rfl⟩⟩⟩⟩
    · exact ordered [] (by simp)
    · exact ordered [] (by simp)
    · exact ordered [.leaf .warnings] (by simp)
    · exact ordered [.leaf .warnings] (by simp)
    · exact ordered [.leaf .warnings] (by simp)
  have results : (store.performAll uses .info).1.1 = [some events, some events.tail] := by
    decide +kernel
  have served := performAll_served .info uses store known acyclic
  rw [results] at served
  exact ⟨known, acyclic, _, served⟩

end Store

end EventSieve
