import EventSieve.Config.Build
import EventSieve.Proofs.Sharing

/-!
The level of the main log decides what is written there, and nothing else. A
computation is steady when a higher level hides the notes below that level and
changes nothing besides. Steps that write one message are steady, and so is what
is made of steady steps one after another or inside a chain; every operation is
followed through its own definition from there.
-/

namespace EventSieve

theorem Level.le_trans {low middle high : Level} (first : low ≤ middle) (second : middle ≤ high) :
    low ≤ high :=
  Nat.le_trans first second

namespace Journal

/-- The journal without the notes below a level. -/
def above (journal : Journal) (level : Level) : Journal :=
  { journal with notes := journal.notes.filter fun note => level ≤ note.message.level }

theorem above_append (first later : Journal) (level : Level) :
    (first ++ later).above level = first.above level ++ later.above level := by
  ext1 <;> simp [above]

theorem above_enclosed (journal : Journal) (level : Level) :
    journal.enclosed.above level = (journal.above level).enclosed := by
  ext1
  · exact List.filter_map
  · rfl
  · rfl

end Journal

namespace Logged
variable {α β : Type}

/-- A higher level of the main log hides the notes below it. Result, complaints, calls and the other
    notes are the same. -/
def Steady (run : Logged α) : Prop :=
  ∀ low high, low ≤ high → run high = ((run low).1, (run low).2.above high)

theorem steady_pure (a : α) : Steady (pure a : Logged α) := fun _ _ _ => rfl

theorem steady_bind {run : Logged α} {next : α → Logged β} (first : run.Steady)
    (later : ∀ a, (next a).Steady) : Steady (run >>= next) := by
  intro low high le
  rw [bind_apply, bind_apply, first low high le, later _ low high le, Journal.above_append]

theorem steady_inside {run : Logged α} (steady : run.Steady) : (inside run).Steady := by
  intro low high le
  rw [inside_apply, inside_apply, steady low high le, Journal.above_enclosed]

theorem steady_called (callee : Callee) (given : List Event) : (called callee given).Steady :=
  fun _ _ _ => rfl

/-- Other channels have a level of their own, which is always the same. -/
theorem steady_complain (channel : String) (message : Message) : (complain channel message).Steady := by
  intro low high _
  by_cases written : channelLevel ≤ message.level
  · simp [complain, write, written, Journal.above]
  · simp [complain, write, written, Journal.above]

theorem steady_note (message : Message) : (note message).Steady := by
  intro low high le
  rw [note_apply, note_apply]
  by_cases loud : high ≤ message.level
  · have before := Level.le_trans le loud
    simp [Journal.above, loud, before]
  · by_cases before : low ≤ message.level
    · simp [Journal.above, loud, before]
    · simp [Journal.above, loud, before]

end Logged

open Logged

/-! ## Filters that are no chains -/

theorem Subject.steady_resolve (subject : Subject) : subject.resolve.Steady := by
  unfold Subject.resolve
  cases ApiVersion.read subject.apiVersion with
  | ok version => exact steady_pure _
  | error problem => exact steady_bind (steady_note _) fun _ => steady_pure _

theorem KindFilter.steady_announceRules (rules : List Rule) : (KindFilter.announceRules rules).Steady := by
  induction rules with
  | nil => exact steady_pure _
  | cons rule rest ih =>
    by_cases written : rule.isWritable
    · simpa [KindFilter.announceRules, written] using ih
    · simpa [KindFilter.announceRules, written] using steady_bind (steady_note _) fun _ => ih

theorem KindFilter.steady_announce (filter : KindFilter) : filter.announce.Steady := by
  obtain ⟨mode, rules⟩ := filter
  cases mode with
  | legacy => exact steady_bind (steady_announceRules rules) fun _ => steady_note _
  | exclusionFirst => exact steady_note _

theorem KindFilter.steady_run (filter : KindFilter) (events : List Event) : (filter.run events).Steady := by
  induction events with
  | nil => exact steady_pure _
  | cons event rest ih =>
    exact steady_bind event.subject.steady_resolve fun _ => steady_bind ih fun _ => steady_pure _

theorem WindowFilter.steady_run (filter : WindowFilter) (events : List Event) :
    (filter.run events).Steady := by
  unfold WindowFilter.run
  cases events.getLast? with
  | none => exact steady_bind (steady_complain _ _) fun _ => steady_pure _
  | some last =>
    cases ClockTime.read filter.around with
    | error problem => exact steady_bind (steady_complain _ _) fun _ => steady_pure _
    | ok time => exact steady_bind (steady_note _) fun _ => steady_pure _

theorem Leaf.steady_announce (stage : Leaf) : stage.announce.Steady := by
  cases stage with
  | kind filter => exact filter.steady_announce
  | _ => exact steady_pure _

theorem Leaf.steady_call (stage : Leaf) (events : List Event) : (stage.call events).Steady := by
  refine steady_bind (steady_called _ _) fun _ => ?_
  cases stage with
  | kind filter => exact steady_bind (filter.steady_run events) fun _ => steady_pure _
  | window filter => exact filter.steady_run events
  | _ => exact steady_pure _

/-! ## Chains -/

namespace Chain
variable {σ : Type}

theorem steady_add (stages : List σ) (entry : Option σ) : (add stages entry).Steady := by
  cases entry with
  | none => exact steady_bind (steady_note _) fun _ => steady_pure _
  | some stage => exact steady_pure _

theorem steady_addAll (entries : List (Option σ)) (stages : List σ) : (addAll stages entries).Steady := by
  induction entries generalizing stages with
  | nil => exact steady_pure _
  | cons entry rest ih => exact steady_bind (steady_add stages entry) ih

theorem steady_turn (name : String) (position left : Nat) {stage further : Run}
    (here : ∀ events, (stage events).Steady) (later : ∀ events, (further events).Steady)
    (events : List Event) : (turn name position left stage further events).Steady := by
  unfold turn
  split
  · exact steady_bind (steady_note _) fun _ => steady_pure _
  · refine steady_bind (steady_inside (here events)) fun result => ?_
    cases result with
    | none => exact steady_bind (steady_note _) fun _ => steady_pure _
    | some kept => exact steady_bind (steady_note _) fun _ => later kept

theorem steady_runFrom (name : σ → String) {run : σ → Run} {stages : List σ}
    (each : ∀ stage ∈ stages, ∀ events, (run stage events).Steady) (position : Nat) (events : List Event) :
    (runFrom name run position stages events).Steady := by
  induction stages generalizing position events with
  | nil => exact steady_pure _
  | cons stage rest ih =>
    obtain ⟨here, later⟩ := List.forall_mem_cons.1 each
    exact steady_turn _ _ _ here (ih later (position + 1)) events

end Chain

theorem Filter.steady_run (filter : Filter) (events : List Event) : (filter.run events).Steady := by
  induction filter generalizing events with
  | leaf stage => exact stage.steady_call events
  | chain stages ih =>
    refine steady_bind (steady_called _ _) fun _ => ?_
    rw [Filter.runFrom_eq]
    exact Chain.steady_runFrom _ ih 0 events

namespace Store

theorem steady_add (store : Store) (number : Nat) (entry : Option Held) : (store.add number entry).Steady :=
  steady_bind (Chain.steady_add _ _) fun _ => steady_pure _

theorem steady_newChain (store : Store) (entries : List (Option Held)) : (store.newChain entries).Steady :=
  steady_bind (Chain.steady_addAll _ _) fun _ => steady_pure _

/-- Chains may hold themselves here: the induction is on how deep they are entered. -/
theorem steady_runWithin (store : Store) (depth : Nat) (held : Held) (events : List Event) :
    (store.runWithin depth held events).Steady := by
  induction depth generalizing held events with
  | zero =>
    cases held with
    | leaf stage => exact stage.steady_call events
    | chain number => exact steady_bind (steady_called _ _) fun _ => steady_pure _
  | succ depth ih =>
    cases held with
    | leaf stage => exact stage.steady_call events
    | chain number =>
      exact steady_bind (steady_called _ _) fun _ => Chain.steady_runFrom _ (fun held _ => ih held) 0 events

theorem steady_performAll (store : Store) (uses : List Use) : (store.performAll uses).Steady := by
  induction uses generalizing store with
  | nil => exact steady_pure _
  | cons use rest ih =>
    cases use with
    | add number entry => exact steady_bind (store.steady_add number entry) ih
    | filter number events =>
      refine steady_bind (store.steady_runWithin _ (.chain number) events) fun result => ?_
      exact steady_bind (ih store) fun _ => steady_pure _

end Store

/-! ## Settings -/

namespace Config
variable {σ : Type}

theorem steady_appendLeaves (lift : Leaf → σ) (stages : List Leaf) (chain : List σ) :
    (appendLeaves lift chain stages).Steady := by
  induction stages generalizing chain with
  | nil => exact steady_pure _
  | cons stage rest ih =>
    exact steady_bind stage.steady_announce fun _ => steady_bind (Chain.steady_add _ _) ih

theorem steady_build (lift : Leaf → σ) (config : Config) (channel : String) (chain : List σ) :
    (build lift config channel chain).Steady :=
  steady_bind (steady_appendLeaves _ _ _) fun _ => steady_bind (steady_note _) fun _ => steady_pure _

theorem steady_parse (json : Json) : (parse json).Steady := by
  unfold parse
  cases decode json with
  | ok config => exact steady_pure _
  | error problem => exact steady_bind (steady_note _) fun _ => steady_pure _

theorem steady_parseInto (json : Json) (old : Variable Config) : (parseInto json old).Steady :=
  steady_bind (steady_parse json) fun _ => steady_pure _

theorem steady_readAndBuild (lift : Leaf → σ) (json : Json) (channel : String) (old : Variable (List σ)) :
    (readAndBuild lift json channel old).Steady := by
  refine steady_bind (steady_parse json) fun reading => ?_
  cases reading with
  | error problem => exact steady_pure _
  | ok config => exact steady_bind (steady_build _ _ _ _) fun _ => steady_pure _

end Config

/-! ## Operations -/

/-- What can be asked for, each with what it gives back: a result, and what it changes as it is then. -/
inductive Operation : Type → Type 1
  | resolve (subject : Subject) : Operation QualifiedKind
  | makeKindFilter (mode : KindMode) (rules : List Rule) : Operation KindFilter
  | makeChain (store : Store) (entries : List (Option Held)) : Operation (Held × Store)
  | add (store : Store) (number : Nat) (entry : Option Held) : Operation Store
  | parse (json : Json) (old : Variable Config) : Operation (Bool × Variable Config)
  | build {σ : Type} (lift : Leaf → σ) (config : Config) (channel : String) (chain : List σ) :
      Operation (List σ)
  | readAndBuild {σ : Type} (lift : Leaf → σ) (json : Json) (channel : String) (old : Variable (List σ)) :
      Operation (Bool × Variable (List σ))
  | run (filter : Filter) (events : List Event) : Operation (Option (List Event))
  | runShared (store : Store) (held : Held) (events : List Event) : Operation (Option (List Event))
  | runAll (store : Store) (uses : List Store.Use) : Operation (List (Option (List Event)) × Store)

namespace Operation

def perform {α : Type} : Operation α → Logged α
  | .resolve subject => subject.resolve
  | .makeKindFilter mode rules => do
    KindFilter.announce ⟨mode, rules⟩
    return ⟨mode, rules⟩
  | .makeChain store entries => store.newChain entries
  | .add store number entry => store.add number entry
  | .parse json old => Config.parseInto json old
  | .build lift config channel chain => config.build lift channel chain
  | .readAndBuild lift json channel old => Config.readAndBuild lift json channel old
  | .run filter events => filter.run events
  | .runShared store held events => store.run held events
  | .runAll store uses => store.performAll uses

theorem steady_perform {α : Type} (operation : Operation α) : operation.perform.Steady := by
  cases operation with
  | resolve subject => exact subject.steady_resolve
  | makeKindFilter mode rules => exact steady_bind (KindFilter.steady_announce _) fun _ => steady_pure _
  | makeChain store entries => exact store.steady_newChain entries
  | add store number entry => exact store.steady_add number entry
  | parse json old => exact Config.steady_parseInto json old
  | build lift config channel chain => exact Config.steady_build lift config channel chain
  | readAndBuild lift json channel old => exact Config.steady_readAndBuild lift json channel old
  | run filter events => exact filter.steady_run events
  | runShared store held events => exact store.steady_runWithin _ held events
  | runAll store uses => exact store.steady_performAll uses

/-- The level of the main log shows in its notes only. At a higher level an operation gives back the
    same, complains of the same and calls the same; it notes what it notes at a lower one, the same
    messages in the same order, except those below the higher level. -/
theorem perform_at_levels {α : Type} (operation : Operation α) {low high : Level} (le : low ≤ high) :
    (operation.perform high).1 = (operation.perform low).1 ∧
    (operation.perform high).2.complaints = (operation.perform low).2.complaints ∧
    (operation.perform high).2.calls = (operation.perform low).2.calls ∧
    (operation.perform high).2.notes =
      (operation.perform low).2.notes.filter fun note => high ≤ note.message.level := by
  rw [operation.steady_perform low high le]
  exact ⟨rfl, rfl, rfl, rfl⟩

/-- A window inside could not run: from three notes, the two on the chains that ended are left. -/
theorem perform_at_levels_unreadable :
    let window : WindowFilter := { around := "25", channel := "/window" }
    let event : Event := { place := 0, severity := .warning }
    let operation := Operation.run (.chain [.leaf .warnings, .chain [.leaf (.window window)]]) [event]
    Level.trace ≤ Level.warn ∧
    (operation.perform .trace).2.notes.length = 3 ∧
    (operation.perform .warn).2.notes =
      [⟨1, .chainAborted "filter_around" 0⟩, ⟨0, .chainAborted "filter_chain" 1⟩] := by
  intro window event operation
  have le : Level.trace ≤ Level.warn := by decide
  have noted : (operation.perform .trace).2.notes = [⟨0, .stageApplied "filter_warning" 1 1⟩,
      ⟨1, .chainAborted "filter_around" 0⟩, ⟨0, .chainAborted "filter_chain" 1⟩] := by
    decide +kernel
  obtain ⟨_, _, _, notes⟩ := operation.perform_at_levels le
  rw [noted] at notes ⊢
  exact ⟨le, rfl, notes⟩

end Operation

end EventSieve
