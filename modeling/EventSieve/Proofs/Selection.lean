import EventSieve.Config.Build
import EventSieve.Proofs.Nesting
import Mathlib.Data.Set.Basic

/-!
What a chain built from settings returns. Each filter but the window passes an
event on a fixed number of times, whatever comes with it, and so do several in a
row (`Leaf.Spreads`). The settings therefore select events one by one, the kind
filter repeating some, and the window is placed on the day of the last event
that was selected (`Config.outcome`).
-/

namespace EventSieve

/-! ## Allowed texts -/

namespace AllowList

theorem mem_insert {allowed : AllowList} {value text : String} :
    text ∈ (allowed.insert value).values ↔ text ∈ allowed.values ∨ text = value := by
  unfold insert
  by_cases known : value ∈ allowed.values
  · rw [if_pos known]
    constructor
    · exact Or.inl
    · rintro (member | rfl)
      · exact member
      · exact known
  · simp [if_neg known]

theorem mem_ofList {values : List String} {text : String} :
    text ∈ (ofList values).values ↔ text ∈ values := by
  have general : ∀ (values : List String) (allowed : AllowList),
      text ∈ (values.foldl insert allowed).values ↔ text ∈ allowed.values ∨ text ∈ values := by
    intro values
    induction values with
    | nil => simp
    | cons value rest ih =>
      intro allowed
      rw [List.foldl_cons, ih, mem_insert, List.mem_cons, or_assoc]
  rw [ofList, general]
  simp

/-- A list made of texts accepts exactly these, and everything when there are none. -/
theorem accepts_ofList {values : List String} {text : String} :
    (ofList values).accepts text = true ↔ values = [] ∨ text ∈ values := by
  have same : (ofList values).values = [] ↔ values = [] := by
    simp only [List.eq_nil_iff_forall_not_mem, mem_ofList]
  simp only [accepts, acceptsAll, Bool.or_eq_true, List.isEmpty_iff, List.contains_iff_mem, same,
    mem_ofList]

end AllowList

/-! ## Filters that act on each event -/

namespace Leaf

/-- The leaves in a row pass each event on as often as the count says, whatever comes with it. -/
def Spreads (stages : List Leaf) (copies : Event → Nat) : Prop :=
  ∀ level events, (rowOutcome stages level events).1 = some (spread copies events)

theorem spreads_nil : Spreads [] fun _ => 1 := by
  intro level events
  rw [spread_one]
  rfl

theorem spreads_append {first later : List Leaf} {copies more : Event → Nat}
    (here : Spreads first copies) (there : Spreads later more) :
    Spreads (first ++ later) fun event => copies event * more event := by
  intro level events
  rw [rowOutcome_append, Outcome.follow_result, here, Option.bind_some, there, spread_spread]

theorem spreads_append_choice {first later : List Leaf} {p q : Event → Prop} [DecidablePred p]
    [DecidablePred q] (here : Spreads first fun event => if p event then 1 else 0)
    (there : Spreads later fun event => if q event then 1 else 0) :
    Spreads (first ++ later) fun event => if p event ∧ q event then 1 else 0 := by
  have product : ∀ event, (if p event then 1 else 0) * (if q event then 1 else 0) =
      if p event ∧ q event then 1 else 0 := by
    intro event
    by_cases chosen : p event <;> simp [chosen]
  simpa only [product] using spreads_append here there

theorem spreads_single {stage : Leaf} {copies : Event → Nat}
    (alone : ∀ level events, (stage.call events level).1 = some (spread copies events)) :
    Spreads [stage] copies := by
  intro level events
  by_cases fed : events = []
  · rw [fed, rowOutcome_nil, spread_nil]
    rfl
  · rw [rowOutcome_single stage level fed]
    exact alone level events

theorem spreads_warnings :
    Spreads [.warnings] fun event => if event.severity = .warning then 1 else 0 :=
  spreads_single fun level events => by
    rw [spread_choice]
    rfl

theorem spreads_field (which : Field) (condition : Condition) :
    Spreads [.field which condition] fun event => if condition.accepts (which.text event) then 1 else 0 :=
  spreads_single fun level events => by
    simp only [spread_choice, Bool.decide_eq_true]
    rfl

theorem spreads_kind (filter : KindFilter) : Spreads [.kind filter] filter.copiesOf :=
  spreads_single fun level events => by
    rw [← filter.run_result events level]
    rfl

end Leaf

/-! ## The window -/

/-- The instants in the window of a span around an anchor, both ends included. -/
def Span.window (span : Span) (anchor : Int) : Set Int :=
  match span with
  | .finite n => {instant | ticksPerNano * anchor - n ≤ ticksPerNano * instant ∧
      ticksPerNano * instant ≤ ticksPerNano * anchor + n}
  | .endless => Set.univ
  | .minusEndless => ∅

instance (span : Span) (anchor instant : Int) : Decidable (instant ∈ span.window anchor) :=
  match span with
  | .finite n => inferInstanceAs (Decidable (ticksPerNano * anchor - n ≤ ticksPerNano * instant ∧
      ticksPerNano * instant ≤ ticksPerNano * anchor + n))
  | .endless => .isTrue trivial
  | .minusEndless => .isFalse id

theorem Span.covers_iff (span : Span) (anchor instant : Int) :
    span.covers anchor instant = true ↔ instant ∈ span.window anchor := by
  cases span with
  | finite n => simp [covers, window]
  | endless => simp [covers, window]
  | minusEndless => simp [covers, window]

theorem WindowFilter.inside_eq (span : Span) (anchor : Int) (events : List Event) :
    inside span anchor events = events.filter fun event => event.lastSeen.instant ∈ span.window anchor := by
  apply List.filter_congr
  intro event _
  rw [Bool.eq_iff_iff, Span.covers_iff, decide_eq_true_eq]

/-! ## Chains built from settings -/

namespace Config
variable {σ : Type}

theorem appendLeaves_result (lift : Leaf → σ) (chain : List σ) (stages : List Leaf) (level : Level) :
    (appendLeaves lift chain stages level).1 = chain ++ stages.map lift := by
  induction stages generalizing chain with
  | nil => simp [appendLeaves]
  | cons stage rest ih => simp [appendLeaves, ih, Chain.add_result]

theorem build_result (lift : Leaf → σ) (config : Config) (channel : String) (chain : List σ)
    (level : Level) :
    (config.build lift channel chain level).1 = chain ++ (config.stages channel).map lift := by
  simp [build, appendLeaves_result]

/-- Every setting on the severity and the texts of events lets the event through. -/
def Admits (config : Config) (event : Event) : Prop :=
  (config.warningsOnly = true → event.severity = .warning) ∧
  (config.namespaces = [] ∨ event.subject.ns ∈ config.namespaces) ∧
  (config.names = [] ∨ event.subject.name ∈ config.names) ∧
  (config.uids = [] ∨ event.subject.uid ∈ config.uids) ∧
  (config.reasons = [] ∨ event.reason ∈ config.reasons) ∧
  (config.components = [] ∨ event.component ∈ config.components)

instance (config : Config) (event : Event) : Decidable (config.Admits event) :=
  inferInstanceAs (Decidable (_ ∧ _))

/-- How often the kind filter of the settings emits an event; once when there are no keys. -/
def copies (config : Config) (event : Event) : Nat :=
  if config.kinds.entries = [] then 1
  else (KindFilter.ofTable config.mode config.kinds).copies event.subject.qualifiedKind

/-- The events that the settings other than the window select, in order. -/
def selected (config : Config) (events : List Event) : List Event :=
  spread config.copies (events.filter fun event => config.Admits event)

/-- Exact result for the settings. The window counts when something was selected, on the day of
    the last event that was. -/
def outcome (config : Config) (events : List Event) : Option (List Event) :=
  match (config.selected events).getLast? with
  | none => some []
  | some last =>
    if config.around = "" then some (config.selected events)
    else match ClockTime.read config.around with
      | .error _ => none
      | .ok time => some <| (config.selected events).filter fun event =>
          event.lastSeen.instant ∈ config.aroundSpan.window (time.anchor last.lastSeen)

theorem spreads_fieldStages (config : Config) (field : Field) :
    Leaf.Spreads (config.fieldStages field) fun event =>
      if config.accepted field = [] ∨ field.text event ∈ config.accepted field then 1 else 0 := by
  unfold fieldStages
  by_cases free : config.accepted field = []
  · simpa [free] using Leaf.spreads_nil
  · have stage := Leaf.spreads_field field (.oneOf (.ofList (config.accepted field)))
    simp only [Condition.accepts, AllowList.accepts_ofList] at stage
    rw [if_neg free]
    exact stage

theorem spreads_fields (config : Config) (fields : List Field) :
    Leaf.Spreads (fields.flatMap config.fieldStages) fun event =>
      if ∀ field ∈ fields, config.accepted field = [] ∨ field.text event ∈ config.accepted field
      then 1 else 0 := by
  induction fields with
  | nil => simpa using Leaf.spreads_nil
  | cons field rest ih =>
    have both := Leaf.spreads_append_choice (config.spreads_fieldStages field) ih
    simpa only [List.flatMap_cons, List.forall_mem_cons] using both

theorem spreads_severity (config : Config) :
    Leaf.Spreads (if config.warningsOnly then [.warnings] else []) fun event =>
      if config.warningsOnly = true → event.severity = .warning then 1 else 0 := by
  by_cases only : config.warningsOnly = true
  · simpa [only] using Leaf.spreads_warnings
  · simpa [only] using Leaf.spreads_nil

theorem spreads_kindStages (config : Config) : Leaf.Spreads config.kindStages config.copies := by
  by_cases free : config.kinds.entries = []
  · have once : config.copies = fun _ => 1 := funext fun _ => if_pos free
    rw [kindStages, if_pos free, once]
    exact Leaf.spreads_nil
  · have emitted : config.copies = (KindFilter.ofTable config.mode config.kinds).copiesOf :=
      funext fun _ => if_neg free
    rw [kindStages, if_neg free, emitted]
    exact Leaf.spreads_kind _

/-- The conditions on severity and on every field are those of `Admits`. -/
theorem admits_iff (config : Config) (event : Event) :
    config.Admits event ↔ (config.warningsOnly = true → event.severity = .warning) ∧
      ∀ field ∈ Field.all, config.accepted field = [] ∨ field.text event ∈ config.accepted field := by
  simp [Admits, Field.all, accepted, Field.text]

/-- The filters before the window select what the settings select. -/
theorem narrowing_result (config : Config) (events : List Event) (level : Level) :
    (Leaf.rowOutcome ((if config.warningsOnly then [.warnings] else []) ++
      Field.all.flatMap config.fieldStages ++ config.kindStages) level events).1 =
      some (config.selected events) := by
  have chosen := Leaf.spreads_append_choice config.spreads_severity (config.spreads_fields Field.all)
  simp only [← admits_iff] at chosen
  have admitted := chosen level events
  rw [spread_choice] at admitted
  rw [Leaf.rowOutcome_append, Outcome.follow_result, admitted, Option.bind_some, spreads_kindStages,
    selected]

theorem windowStages_result (config : Config) (channel : String) (events : List Event) (level : Level) :
    (Leaf.rowOutcome (config.windowStages channel) level (config.selected events)).1 =
      config.outcome events := by
  unfold outcome
  cases found : (config.selected events).getLast? with
  | none =>
    rw [List.getLast?_eq_none_iff.1 found, Leaf.rowOutcome_nil]
    rfl
  | some last =>
    have fed : config.selected events ≠ [] := by
      intro empty
      rw [empty] at found
      cases found
    by_cases free : config.around = ""
    · simp only [windowStages, if_pos free]
      rfl
    · let filter : WindowFilter := ⟨config.around, config.aroundSpan, channel⟩
      have called : (Leaf.rowOutcome [.window filter] level (config.selected events)).1 =
          (filter.run (config.selected events) level).1 := by
        rw [Leaf.rowOutcome_single _ level fed]
        rfl
      simp only [windowStages, if_neg free]
      cases reading : ClockTime.read config.around with
      | error problem =>
        have unreadable : ClockTime.read filter.around = .error problem := reading
        rw [called, WindowFilter.run_unreadable unreadable fed]
      | ok time =>
        have readable : ClockTime.read filter.around = .ok time := reading
        rw [called, (WindowFilter.run_readable readable found level).1, WindowFilter.inside_eq]

theorem stages_result (config : Config) (channel : String) (events : List Event) (level : Level) :
    (Leaf.rowOutcome (config.stages channel) level events).1 = config.outcome events := by
  rw [stages, Leaf.rowOutcome_append, Outcome.follow_result, narrowing_result, Option.bind_some,
    windowStages_result]

theorem copies_le (config : Config) (event : Event) :
    config.copies event ≤ match config.mode with
      | .exclusionFirst => 1
      | .legacy => 2 := by
  unfold copies
  by_cases free : config.kinds.entries = []
  · rw [if_pos free]
    cases config.mode <;> simp
  · rw [if_neg free]
    cases config.mode with
    | exclusionFirst => exact KindFilter.copies_exclusionFirst_le _ _
    | legacy => exact KindFilter.copies_legacy_le _ _

/-- A chain built from settings returns exactly what the settings select: all that is let through,
    repeated as often as the kind filter of the mode emits it, and of this what lies in the window. -/
theorem run_built (config : Config) (channel : String) (events : List Event) (atBuild atRun : Level) :
    ((Filter.chain (config.build Filter.leaf channel [] atBuild).1).run events atRun).1 =
        config.outcome events ∧
      ∀ event, config.copies event ≤ match config.mode with
        | .exclusionFirst => 1
        | .legacy => 2 := by
  refine ⟨?_, config.copies_le⟩
  have outcome := Filter.run_chain_outcome ((config.stages channel).map .leaf) atRun events
  rw [Filter.leavesAll_map_leaf] at outcome
  rw [build_result, List.nil_append]
  exact (congrArg (fun outcome => outcome.1) outcome).trans (config.stages_result channel events atRun)

end Config

end EventSieve
