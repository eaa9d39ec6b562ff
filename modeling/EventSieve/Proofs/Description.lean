import EventSieve.Proofs.LegacyKeys
import EventSieve.Proofs.Selection

/-!
The description of settings against the chain that is built from them. Both go
through the settings in one order and leave out those that put no condition, so
the description can be told from the filters that were appended: each of them
has its segment, and nothing else has one. The kinds are described by the keys
that the filter writes for its rules.
-/

namespace EventSieve

def Leaf.isWarnings : Leaf → Bool
  | .warnings => true
  | _ => false

/-- What a description says of a filter other than the one on severity; the values of a filter on a
    field are those of the settings. -/
def Leaf.segments (values : Field → List String) : Leaf → List String
  | .field which _ => [which.plural ++ "=" ++ Config.bracketed (values which)]
  | .kind filter =>
    ["kinds=" ++ Config.bracketed (filter.rules.map fun rule => rule.key.text),
      "kind_match_mode=" ++ filter.mode.name]
  | .window filter => ["around=" ++ filter.around, "around_duration=" ++ filter.span.text]
  | .warnings => []
  | .custom .. => []

namespace Config

/-- The settings put a condition for which there is this sort of filter. -/
def asksFor (config : Config) : Leaf → Bool
  | .warnings => config.warningsOnly
  | .field which _ => config.accepted which ≠ []
  | .kind _ => config.kinds.entries ≠ []
  | .window _ => config.around ≠ ""
  | .custom .. => false

/-- The filter on a field for its accepted texts. -/
def fieldLeaf (config : Config) (which : Field) : Leaf :=
  .field which (.oneOf (.ofList (config.accepted which)))

/-- One filter of each sort for the settings, in order. -/
def everyStage (config : Config) (channel : String) : List Leaf :=
  [.warnings] ++ Field.all.map config.fieldLeaf ++ [.kind (.ofTable config.mode config.kinds)] ++
    [.window ⟨config.around, config.aroundSpan, channel⟩]

/-! ## Which filters are appended -/

theorem optional_eq_filter {config : Config} {stage : Leaf} {free : Prop} [Decidable free]
    (asked : config.asksFor stage = true ↔ ¬ free) :
    (if free then [] else [stage]) = [stage].filter config.asksFor := by
  by_cases unasked : free
  · have refused : config.asksFor stage = false := by
      rw [← Bool.not_eq_true]
      exact fun wanted => asked.1 wanted unasked
    simp [unasked, refused]
  · simp [unasked, asked.2 unasked]

theorem fields_eq_filter (config : Config) (fields : List Field) :
    fields.flatMap config.fieldStages = (fields.map config.fieldLeaf).filter config.asksFor := by
  induction fields with
  | nil => rfl
  | cons which rest ih =>
    have first : config.fieldStages which = [config.fieldLeaf which].filter config.asksFor :=
      optional_eq_filter decide_eq_true_iff
    rw [List.flatMap_cons, first, ih, ← List.filter_append]
    rfl

/-- The filters for the settings are those that the settings ask for. -/
theorem stages_eq_filter (config : Config) (channel : String) :
    config.stages channel = (config.everyStage channel).filter config.asksFor := by
  have severity : (if config.warningsOnly then [.warnings] else []) = [Leaf.warnings].filter config.asksFor := by
    cases only : config.warningsOnly <;> simp [asksFor, only]
  have kind : config.kindStages = [.kind (.ofTable config.mode config.kinds)].filter config.asksFor :=
    optional_eq_filter decide_eq_true_iff
  have window : config.windowStages channel =
      [.window ⟨config.around, config.aroundSpan, channel⟩].filter config.asksFor :=
    optional_eq_filter decide_eq_true_iff
  rw [stages, severity, config.fields_eq_filter, kind, window]
  simp only [everyStage, List.filter_append]

/-- There is a filter on severity where the settings ask for warnings only. -/
theorem any_isWarnings_stages (config : Config) (channel : String) :
    (config.stages channel).any Leaf.isWarnings = config.warningsOnly := by
  simp [stages_eq_filter, List.any_filter, everyStage, Field.all, fieldLeaf, asksFor, Leaf.isWarnings]

/-! ## What is said of them -/

theorem segments_fieldStages (config : Config) (which : Field) :
    (config.fieldStages which).flatMap (Leaf.segments config.accepted) = config.fieldSegment which := by
  unfold fieldStages fieldSegment
  split <;> rfl

theorem segments_kindStages (config : Config) :
    config.kindStages.flatMap (Leaf.segments config.accepted) = config.kindSegments := by
  -- The filter holds rules, whose keys are written anew.
  have written : (KindFilter.ofTable config.mode config.kinds).rules.map (fun rule => rule.key.text) =
      config.kinds.keys.map QualifiedKind.text := by
    rw [← KindFilter.keys_ofTable config.mode config.kinds, KindFilter.keys, List.map_map]
    rfl
  unfold kindStages kindSegments
  rw [← written]
  split <;> rfl

theorem segments_windowStages (config : Config) (channel : String) :
    (config.windowStages channel).flatMap (Leaf.segments config.accepted) = config.windowSegments := by
  unfold windowStages windowSegments
  split <;> rfl

theorem segments_stages (config : Config) (channel : String) :
    (config.stages channel).flatMap (Leaf.segments config.accepted) =
      Field.all.flatMap config.fieldSegment ++ config.kindSegments ++ config.windowSegments := by
  have severity : (if config.warningsOnly then [Leaf.warnings] else []).flatMap
      (Leaf.segments config.accepted) = [] := by
    cases config.warningsOnly <;> rfl
  simp only [stages, List.flatMap_append, List.flatMap_assoc, severity, segments_fieldStages,
    segments_kindStages, segments_windowStages, List.nil_append]

theorem description_eq (config : Config) (channel : String) :
    config.description = Text.joined ", " (
      ("warnings_only=" ++ if (config.stages channel).any Leaf.isWarnings then "true" else "false") ::
        (config.stages channel).flatMap (Leaf.segments config.accepted)) := by
  rw [any_isWarnings_stages, segments_stages, description, List.cons_append, List.cons_append]

/-- Building appends, to whatever stages there are, those of the eight sorts of filters that the settings
    ask for, each at most once and in order. The description is made of what was appended: whether there
    is a filter on severity, and then the segments of every other one, in their order. -/
theorem build_described (config : Config) (channel : String) :
    let appended : List Leaf := [.warnings,
      .field .ns (.oneOf (.ofList config.namespaces)),
      .field .name (.oneOf (.ofList config.names)),
      .field .uid (.oneOf (.ofList config.uids)),
      .field .reason (.oneOf (.ofList config.reasons)),
      .field .component (.oneOf (.ofList config.components)),
      .kind (.ofTable config.mode config.kinds),
      .window ⟨config.around, config.aroundSpan, channel⟩].filter config.asksFor
    (∀ {σ : Type} (lift : Leaf → σ) (chain : List σ) (level : Level),
      (config.build lift channel chain level).1 = chain ++ appended.map lift) ∧
    (appended.map Leaf.name).Nodup ∧
    config.description = Text.joined ", " (
      ("warnings_only=" ++ if appended.any Leaf.isWarnings then "true" else "false") ::
        appended.flatMap (Leaf.segments config.accepted)) := by
  intro appended
  have stages : config.stages channel = appended := config.stages_eq_filter channel
  refine ⟨?_, ?_, ?_⟩
  · intro σ lift chain level
    rw [← stages]
    exact config.build_result lift channel chain level
  · have distinct : ["filter_warning", "filter_namespace", "filter_name", "filter_uid", "filter_reason",
        "filter_component", "filter_kind", "filter_around"].Nodup := by decide
    exact (List.filter_sublist.map Leaf.name).nodup distinct
  · rw [← stages]
    exact config.description_eq channel

/-- Values are listed as they were given, repetitions included. -/
example :
    let kinds := RuleTable.ofList [(⟨"apps", "-*"⟩, true)]
    Config.description { names := ["web", "db", "web"], kinds, around := "10:00" } =
      Text.joined ", " ["warnings_only=false", "names=[web,db,web]", "kinds=[-*.apps]",
        "kind_match_mode=exclusion_first", "around=10:00", "around_duration=15m"] := by
  decide +kernel

end Config

end EventSieve
