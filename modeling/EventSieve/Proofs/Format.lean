import EventSieve.Config.Build
import EventSieve.Proofs.Journal
import EventSieve.Proofs.RuleTable

/-!
The format of settings. A JSON object describes settings when each member that
counts is written for the setting or is absent and the setting is the standard
one (`Config.Describes`); other members may be anything. Which objects describe
some settings is said member by member (`Config.Readable`). Reading succeeds on
exactly these and finds exactly the settings described, whatever stood in the
variable before.
-/

namespace EventSieve

theorem Except.bind_eq_ok_iff {ε α β : Type} {first : Except ε α} {next : α → Except ε β} {b : β} :
    first >>= next = .ok b ↔ ∃ a, first = .ok a ∧ next a = .ok b := by
  cases first <;> simp [bind, Except.bind]

theorem Except.map_eq_ok_iff {ε α β : Type} {first : Except ε α} {f : α → β} {b : β} :
    first.map f = .ok b ↔ ∃ a, first = .ok a ∧ f a = b := by
  cases first <;> simp [Except.map]

/-- Texts as a JSON list. -/
def Json.texts (values : List String) : Json := .array (values.map .string)

/-! ## Parameters -/

namespace Param

theorem flag_eq_ok_iff {json : Json} {key : String} {found : Option Bool} :
    flag json key = .ok found ↔ json.member? key = found.map .bool := by
  unfold flag
  cases json.member? key with
  | none => cases found <;> simp
  | some value => cases found <;> cases value <;> simp

theorem text_eq_ok_iff {json : Json} {key : String} {found : Option String} :
    text json key = .ok found ↔ json.member? key = found.map .string := by
  unfold text
  cases json.member? key with
  | none => cases found <;> simp
  | some value => cases found <;> cases value <;> simp

theorem mandatoryText_eq_ok_iff {json : Json} {key value : String} :
    mandatoryText json key = .ok value ↔ json.member? key = some (.string value) := by
  unfold mandatoryText
  cases json.member? key with
  | none => simp
  | some found => cases found <;> simp

theorem items_eq_ok_iff {json : Json} {key : String} {found : List Json} :
    items json key = .ok found ↔ json.member? key = some (.array found) := by
  unfold items
  cases json.member? key with
  | none => simp
  | some value => cases value <;> simp

theorem allTexts_eq_some_iff {items : List Json} {values : List String} :
    allTexts items = some values ↔ items = values.map .string := by
  induction items generalizing values with
  | nil => cases values <;> simp [allTexts]
  | cons item rest ih =>
    cases item with
    | string text => cases values <;> simp [allTexts, ih, and_comm]
    | _ => cases values <;> simp [allTexts]

theorem texts_eq_ok_iff {json : Json} {key : String} {found : Option (List String)} :
    texts json key = .ok found ↔ json.member? key = found.map Json.texts := by
  unfold texts
  cases json.member? key with
  | none => cases found <;> simp
  | some value =>
    cases value with
    | array items =>
      cases reading : allTexts items with
      | none =>
        have unreadable : ∀ values : List String, items ≠ values.map .string := by
          intro values same
          rw [allTexts_eq_some_iff.2 same] at reading
          cases reading
        cases found <;> simp [reading, Json.texts, unreadable]
      | some values =>
        have same := allTexts_eq_some_iff.1 reading
        cases found with
        | none => simp [reading]
        | some others =>
          have inj : values.map Json.string = others.map .string ↔ values = others :=
            List.map_inj_right fun _ _ => Json.string.inj
          simp only [reading]
          simp [Json.texts, same, inj]
    | _ => cases found <;> simp [Json.texts]

end Param

/-! ## Members that stand for settings -/

namespace Config

/-- The member under a key is written for the value, or there is none and the value is the standard
    one. A member that is null is a member. -/
def Stands {α : Type} (json : Json) (key : String) (write : α → Json) (standard value : α) : Prop :=
  match json.member? key with
  | none => value = standard
  | some found => found = write value

theorem orDefault_eq_ok_iff {α : Type} {json : Json} {key : String} {write : α → Json}
    {found : Except ParamError (Option α)}
    (faithful : ∀ option, found = .ok option ↔ json.member? key = option.map write) {standard value : α} :
    orDefault standard found = .ok value ↔ Stands json key write standard value := by
  unfold Stands
  cases member : json.member? key with
  | none =>
    have absent : found = .ok none := (faithful none).2 member
    simp [orDefault, absent, eq_comm]
  | some written =>
    constructor
    · intro successful
      cases reading : found with
      | error problem => simp [orDefault, reading] at successful
      | ok option =>
        have same := (faithful option).1 reading
        rw [member] at same
        cases option with
        | none => cases same
        | some other =>
          have equal : other = value := by simpa [orDefault, reading] using successful
          rw [← equal]
          exact Option.some.inj same
    · intro same
      have present : found = .ok (some value) := (faithful (some value)).2 (by rw [member, same]; rfl)
      simp [orDefault, present]

theorem flag_stands_iff {json : Json} {key : String} {value : Bool} :
    orDefault false (Param.flag json key) = .ok value ↔ Stands json key .bool false value :=
  orDefault_eq_ok_iff fun _ => Param.flag_eq_ok_iff

theorem text_stands_iff {json : Json} {key value : String} :
    orDefault "" (Param.text json key) = .ok value ↔ Stands json key .string "" value :=
  orDefault_eq_ok_iff fun _ => Param.text_eq_ok_iff

theorem texts_stands_iff {json : Json} {key : String} {value : List String} :
    orDefault [] (Param.texts json key) = .ok value ↔ Stands json key .texts [] value :=
  orDefault_eq_ok_iff fun _ => Param.texts_eq_ok_iff

theorem exists_stands_iff {α : Type} {json : Json} {key : String} {write : α → Json} (standard : α) :
    (∃ value, Stands json key write standard value) ↔
      ∀ found, json.member? key = some found → ∃ value, found = write value := by
  unfold Stands
  cases json.member? key <;> simp

/-- Something is described by a value that a member stands for, unless the member is written for no
    value that describes anything. -/
theorem exists_described_iff {α β : Type} {json : Json} {key : String} {write : α → Json} (standard : α)
    {describes : α → β → Prop} {fits : α → Prop} (fits_iff : ∀ value, (∃ b, describes value b) ↔ fits value)
    (standardFits : fits standard) :
    (∃ b value, Stands json key write standard value ∧ describes value b) ↔
      ∀ found, json.member? key = some found → ∃ value, found = write value ∧ fits value := by
  rw [exists_comm]
  simp only [exists_and_left, fits_iff]
  unfold Stands
  cases json.member? key with
  | none => simpa using standardFits
  | some written => simp

/-! ## Kinds -/

/-- An element of `Kinds` is written for a key; without a group it is one of the core group. -/
structure DescribesKey (item : Json) (key : QualifiedKind) : Prop where
  isObject : item.isObject = true
  kind : item.member? "Kind" = some (.string key.kind)
  named : key.kind ≠ ""
  group : Stands item "Group" .string "" key.group

theorem decodeKind_eq_ok_iff {item : Json} {key : QualifiedKind} :
    decodeKind item = .ok key ↔ DescribesKey item key := by
  constructor
  · intro decoded
    unfold decodeKind at decoded
    by_cases isObject : item.isObject = true
    · rw [if_pos isObject] at decoded
      cases reading : Param.mandatoryText item "Kind" with
      | error problem => simp [reading] at decoded
      | ok kind =>
        by_cases unnamed : kind = ""
        · simp [reading, unnamed] at decoded
        · simp only [reading, if_neg unnamed] at decoded
          obtain ⟨group, grouped, rfl⟩ := Except.map_eq_ok_iff.1 decoded
          exact ⟨isObject, Param.mandatoryText_eq_ok_iff.1 reading, unnamed, text_stands_iff.1 grouped⟩
    · rw [if_neg isObject] at decoded
      cases decoded
  · rintro ⟨isObject, kind, named, group⟩
    simp only [decodeKind, if_pos isObject, Param.mandatoryText_eq_ok_iff.2 kind, if_neg named]
    exact Except.map_eq_ok_iff.2 ⟨key.group, text_stands_iff.2 group, rfl⟩

/-- A table of the keys that the elements are written for, each of them marked, and no other. -/
structure DescribesKinds (items : List Json) (kinds : RuleTable) : Prop where
  each : ∀ item ∈ items, ∃ key, DescribesKey item key
  comprised : kinds.Comprises fun key => ∃ item ∈ items, DescribesKey item key

theorem decodeKinds_comprises {items : List Json} {kinds table : RuleTable} {keys : QualifiedKind → Prop}
    (before : kinds.Comprises keys) (decoded : decodeKinds items kinds = .ok table) :
    table.Comprises fun key => keys key ∨ ∃ item ∈ items, DescribesKey item key := by
  induction items generalizing kinds keys with
  | nil =>
    obtain rfl := Except.ok.inj decoded
    exact before.congr fun key => by simp
  | cons item rest ih =>
    unfold decodeKinds at decoded
    cases reading : decodeKind item with
    | error problem => simp [reading] at decoded
    | ok new =>
      have only : ∀ key, DescribesKey item key ↔ key = new := by
        intro key
        rw [← decodeKind_eq_ok_iff, reading, Except.ok.injEq, eq_comm]
      simp only [reading] at decoded
      refine (ih (before.insert new) decoded).congr fun key => ?_
      rw [List.exists_mem_cons_iff, only, or_comm (a := key = new), or_assoc]

theorem exists_decodeKinds {items : List Json} (each : ∀ item ∈ items, ∃ key, DescribesKey item key)
    (kinds : RuleTable) : ∃ table, decodeKinds items kinds = .ok table := by
  induction items generalizing kinds with
  | nil => exact ⟨kinds, rfl⟩
  | cons item rest ih =>
    obtain ⟨⟨key, described⟩, further⟩ := List.forall_mem_cons.1 each
    obtain ⟨table, decoded⟩ := ih further (kinds.insert key true)
    refine ⟨table, ?_⟩
    simp only [decodeKinds, decodeKind_eq_ok_iff.2 described, decoded]

theorem decodeKinds_each {items : List Json} {kinds table : RuleTable}
    (decoded : decodeKinds items kinds = .ok table) : ∀ item ∈ items, ∃ key, DescribesKey item key := by
  induction items generalizing kinds with
  | nil => simp
  | cons item rest ih =>
    unfold decodeKinds at decoded
    cases reading : decodeKind item with
    | error problem => simp [reading] at decoded
    | ok key =>
      simp only [reading] at decoded
      exact List.forall_mem_cons.2 ⟨⟨key, decodeKind_eq_ok_iff.1 reading⟩, ih decoded⟩

theorem decodeKinds_eq_ok_iff {items : List Json} {kinds : RuleTable} :
    decodeKinds items {} = .ok kinds ↔ DescribesKinds items kinds := by
  have comprises : ∀ {table}, decodeKinds items {} = .ok table →
      table.Comprises fun key => ∃ item ∈ items, DescribesKey item key := fun decoded =>
    (decodeKinds_comprises RuleTable.comprises_empty decoded).congr fun key => by simp
  constructor
  · intro decoded
    exact ⟨decodeKinds_each decoded, comprises decoded⟩
  · intro described
    obtain ⟨table, decoded⟩ := exists_decodeKinds described.each {}
    rw [decoded, (comprises decoded).unique described.comprised]

theorem kindsOf_eq_ok_iff {json : Json} {kinds : RuleTable} :
    kindsOf json = .ok kinds ↔ ∃ items, Stands json "Kinds" .array [] items ∧ DescribesKinds items kinds := by
  unfold kindsOf Stands
  simp only [← decodeKinds_eq_ok_iff]
  cases member : json.member? "Kinds" with
  | none => simp [decodeKinds]
  | some value =>
    cases reading : Param.items json "Kinds" with
    | error problem =>
      have noList : ∀ items, value ≠ .array items := by
        rintro items rfl
        rw [Param.items_eq_ok_iff.2 member] at reading
        cases reading
      simp [noList]
    | ok items =>
      have same : value = .array items := by
        have found := Param.items_eq_ok_iff.1 reading
        rw [member] at found
        exact Option.some.inj found
      simp [same]

/-! ## Mode and span -/

theorem ofName_eq_some_iff {text : String} {mode : KindMode} :
    KindMode.ofName? text = some mode ↔ text = mode.name := by
  unfold KindMode.ofName?
  cases mode <;> split_ifs <;> simp_all [KindMode.name]

/-- A text names a mode; the empty text stands for the exclusion-first one. -/
def DescribesMode (text : String) (mode : KindMode) : Prop :=
  (text = "" ∧ mode = .exclusionFirst) ∨ text = mode.name

theorem modeOf_eq_ok_iff {json : Json} {mode : KindMode} :
    modeOf json = .ok mode ↔ ∃ text, Stands json "KindMatchMode" .string "" text ∧ DescribesMode text mode := by
  unfold modeOf DescribesMode
  simp only [← text_stands_iff, ← ofName_eq_some_iff]
  cases orDefault "" (Param.text json "KindMatchMode") with
  | error problem => simp
  | ok text =>
    by_cases empty : text = ""
    · have noName : KindMode.ofName? "" = none := by decide
      simp [empty, noName, eq_comm]
    · cases named : KindMode.ofName? text <;> simp [empty, named]

/-- A text is one of a span that is not negative; the empty text stands for a quarter of an hour. -/
def DescribesSpan (text : String) (span : Span) : Prop :=
  (text = "" ∧ span = .quarterHour) ∨ (text ≠ "" ∧ Span.read text = some span ∧ span.isNegative = false)

theorem aroundSpanOf_eq_ok_iff {json : Json} {span : Span} :
    aroundSpanOf json = .ok span ↔
      ∃ text, Stands json "AroundDuration" .string "" text ∧ DescribesSpan text span := by
  unfold aroundSpanOf DescribesSpan
  simp only [← text_stands_iff]
  cases orDefault "" (Param.text json "AroundDuration") with
  | error problem => simp
  | ok text =>
    simp only [Except.ok.injEq, exists_eq_left']
    by_cases empty : text = ""
    · rw [if_pos empty, Except.ok.injEq, eq_comm]
      simp [empty]
    · rw [if_neg empty]
      cases reading : Span.read text with
      | none => simp [empty]
      | some found =>
        by_cases negative : found.isNegative = true
        · simp only [if_pos negative, reduceCtorEq, empty, false_and, Option.some.injEq, false_or, false_iff,
            not_and]
          rintro _ rfl
          simp [negative]
        · simp only [if_neg negative, empty, Except.ok.injEq, false_and, Option.some.injEq, false_or]
          refine ⟨?_, fun described => described.2.1⟩
          rintro rfl
          exact ⟨empty, rfl, Bool.eq_false_iff.2 negative⟩

/-! ## Settings -/

/-- The settings that a JSON object is written for. -/
structure Describes (json : Json) (config : Config) : Prop where
  isObject : json.isObject = true
  warningsOnly : Stands json "WarningsOnly" .bool false config.warningsOnly
  namespaces : Stands json "Namespaces" .texts [] config.namespaces
  names : Stands json "Names" .texts [] config.names
  uids : Stands json "UIDs" .texts [] config.uids
  reasons : Stands json "Reasons" .texts [] config.reasons
  components : Stands json "Components" .texts [] config.components
  kinds : ∃ items, Stands json "Kinds" .array [] items ∧ DescribesKinds items config.kinds
  mode : ∃ text, Stands json "KindMatchMode" .string "" text ∧ DescribesMode text config.mode
  around : Stands json "Around" .string "" config.around
  aroundSpan : ∃ text, Stands json "AroundDuration" .string "" text ∧ DescribesSpan text config.aroundSpan

/-- Exact settings of an object, and none of any other value. -/
theorem decode_eq_ok_iff {json : Json} {config : Config} :
    decode json = .ok config ↔ Describes json config := by
  unfold decode
  by_cases isObject : json.isObject = true
  · rw [if_pos isObject]
    simp only [Except.bind_eq_ok_iff, flag_stands_iff, texts_stands_iff, text_stands_iff, kindsOf_eq_ok_iff,
      modeOf_eq_ok_iff, aroundSpanOf_eq_ok_iff]
    constructor
    · rintro ⟨_, warningsOnly, _, namespaces, _, names, _, uids, _, reasons, _, components, _, kinds, _, mode,
        _, around, _, aroundSpan, same⟩
      obtain rfl := Except.ok.inj same
      exact ⟨isObject, warningsOnly, namespaces, names, uids, reasons, components, kinds, mode, around, aroundSpan⟩
    · intro described
      exact ⟨_, described.warningsOnly, _, described.namespaces, _, described.names, _, described.uids,
        _, described.reasons, _, described.components, _, described.kinds, _, described.mode,
        _, described.around, _, described.aroundSpan, rfl⟩
  · rw [if_neg isObject]
    exact ⟨nofun, fun described => absurd described.isObject isObject⟩

/-! ## Readable objects -/

/-- An element of `Kinds` that is written for a key: it has a kind with a name, and a group that is
    a text if there is one. -/
structure ReadableKind (item : Json) : Prop where
  isObject : item.isObject = true
  kind : ∃ kind, item.member? "Kind" = some (.string kind) ∧ kind ≠ ""
  group : ∀ found, item.member? "Group" = some found → ∃ group, found = .string group

/-- An object that settings can be read from. Members that are absent ask for nothing. -/
structure Readable (json : Json) : Prop where
  isObject : json.isObject = true
  warningsOnly : ∀ found, json.member? "WarningsOnly" = some found → ∃ flag, found = .bool flag
  lists : ∀ key ∈ ["Namespaces", "Names", "UIDs", "Reasons", "Components"],
    ∀ found, json.member? key = some found → ∃ values : List String, found = .array (values.map .string)
  kinds : ∀ found, json.member? "Kinds" = some found →
    ∃ items, found = .array items ∧ ∀ item ∈ items, ReadableKind item
  mode : ∀ found, json.member? "KindMatchMode" = some found →
    ∃ text, found = .string text ∧ text ∈ ["", "legacy", "exclusion_first"]
  around : ∀ found, json.member? "Around" = some found → ∃ text, found = .string text
  aroundSpan : ∀ found, json.member? "AroundDuration" = some found →
    ∃ text, found = .string text ∧
      (text = "" ∨ ∃ span, Span.read text = some span ∧ span.isNegative = false)

theorem readableKind_iff {item : Json} : ReadableKind item ↔ ∃ key, DescribesKey item key := by
  constructor
  · rintro ⟨isObject, ⟨kind, member, named⟩, grouped⟩
    obtain ⟨group, stands⟩ := (exists_stands_iff "").2 grouped
    exact ⟨⟨group, kind⟩, isObject, member, named, stands⟩
  · rintro ⟨key, described⟩
    exact ⟨described.isObject, ⟨key.kind, described.kind, described.named⟩,
      (exists_stands_iff "").1 ⟨key.group, described.group⟩⟩

theorem exists_describesKinds_iff {items : List Json} :
    (∃ kinds, DescribesKinds items kinds) ↔ ∀ item ∈ items, ReadableKind item := by
  simp only [readableKind_iff]
  constructor
  · rintro ⟨kinds, described⟩
    exact described.each
  · intro each
    obtain ⟨kinds, decoded⟩ := exists_decodeKinds each {}
    exact ⟨kinds, decodeKinds_eq_ok_iff.1 decoded⟩

theorem exists_describesMode_iff {text : String} :
    (∃ mode, DescribesMode text mode) ↔ text ∈ ["", "legacy", "exclusion_first"] := by
  simp only [DescribesMode, List.mem_cons, List.not_mem_nil, or_false]
  constructor
  · rintro ⟨mode, ⟨empty, _⟩ | named⟩
    · exact Or.inl empty
    · cases mode with
      | legacy => exact Or.inr (Or.inl named)
      | exclusionFirst => exact Or.inr (Or.inr named)
  · rintro (empty | named | named)
    · exact ⟨.exclusionFirst, Or.inl ⟨empty, rfl⟩⟩
    · exact ⟨.legacy, Or.inr named⟩
    · exact ⟨.exclusionFirst, Or.inr named⟩

theorem exists_describesSpan_iff {text : String} :
    (∃ span, DescribesSpan text span) ↔
      text = "" ∨ ∃ span, Span.read text = some span ∧ span.isNegative = false := by
  by_cases empty : text = "" <;> simp [DescribesSpan, empty]

/-- The readable objects are those that describe some settings. -/
theorem readable_iff {json : Json} : Readable json ↔ ∃ config, Describes json config := by
  have kinds := @exists_described_iff _ _ json "Kinds" .array [] DescribesKinds _
    (fun _ => exists_describesKinds_iff) (List.forall_mem_nil _)
  have mode := @exists_described_iff _ _ json "KindMatchMode" .string "" DescribesMode _
    (fun _ => exists_describesMode_iff) List.mem_cons_self
  have aroundSpan := @exists_described_iff _ _ json "AroundDuration" .string "" DescribesSpan _
    (fun _ => exists_describesSpan_iff) (Or.inl rfl)
  constructor
  · intro readable
    have list : ∀ key ∈ ["Namespaces", "Names", "UIDs", "Reasons", "Components"],
        ∃ values, Stands json key .texts [] values :=
      fun key known => (exists_stands_iff []).2 (readable.lists key known)
    obtain ⟨_, ofWarnings⟩ := (exists_stands_iff false).2 readable.warningsOnly
    obtain ⟨_, ofNamespaces⟩ := list "Namespaces" (by decide)
    obtain ⟨_, ofNames⟩ := list "Names" (by decide)
    obtain ⟨_, ofUids⟩ := list "UIDs" (by decide)
    obtain ⟨_, ofReasons⟩ := list "Reasons" (by decide)
    obtain ⟨_, ofComponents⟩ := list "Components" (by decide)
    obtain ⟨_, ofKinds⟩ := kinds.2 readable.kinds
    obtain ⟨_, ofMode⟩ := mode.2 readable.mode
    obtain ⟨_, ofAround⟩ := (exists_stands_iff "").2 readable.around
    obtain ⟨_, ofSpan⟩ := aroundSpan.2 readable.aroundSpan
    exact ⟨⟨_, _, _, _, _, _, _, _, _, _⟩, readable.isObject, ofWarnings, ofNamespaces, ofNames, ofUids,
      ofReasons, ofComponents, ofKinds, ofMode, ofAround, ofSpan⟩
  · rintro ⟨config, described⟩
    refine ⟨described.isObject, (exists_stands_iff false).1 ⟨_, described.warningsOnly⟩, ?_,
      kinds.1 ⟨_, described.kinds⟩, mode.1 ⟨_, described.mode⟩, (exists_stands_iff "").1 ⟨_, described.around⟩,
      aroundSpan.1 ⟨_, described.aroundSpan⟩⟩
    have lists : ∀ key ∈ ["Namespaces", "Names", "UIDs", "Reasons", "Components"],
        ∃ values, Stands json key .texts [] values := by
      simp only [List.forall_mem_cons]
      exact ⟨⟨_, described.namespaces⟩, ⟨_, described.names⟩, ⟨_, described.uids⟩, ⟨_, described.reasons⟩,
        ⟨_, described.components⟩, by simp⟩
    exact fun key known => (exists_stands_iff []).1 (lists key known)

/-! ## Reading into a variable -/

theorem parseInto_ok {json : Json} {config : Config} (decoded : decode json = .ok config)
    (old : Variable Config) (level : Level) :
    parseInto json old level = ((true, ⟨config, ""⟩), {}) := by
  simp [parseInto, parse, decoded, Variable.receive, Variable.cleared]

theorem parseInto_error {json : Json} {problem : ConfigError} (refused : decode json = .error problem)
    (old : Variable Config) (level : Level) :
    parseInto json old level =
      ((false, ⟨old.value, problem.message⟩), (Logged.note (.configRefused problem) level).2) := by
  simp [parseInto, parse, refused, Variable.receive, Variable.cleared]

/-- A chain for which settings are refused stays as it is. -/
theorem readAndBuild_error {σ : Type} (lift : Leaf → σ) {json : Json} {problem : ConfigError}
    (refused : decode json = .error problem) (channel : String) (chain : Variable (List σ)) (level : Level) :
    readAndBuild lift json channel chain level =
      ((false, ⟨chain.value, problem.message⟩), (Logged.note (.configRefused problem) level).2) := by
  simp [readAndBuild, parse, refused]

/-- Settings are read from the readable objects and from nothing else, and those that are read are
    exactly those described, whatever the variable held before. -/
theorem parseInto_described (json : Json) (old : Variable Config) (level : Level) :
    let result := (parseInto json old level).1
    (result.1 = true ↔ Readable json) ∧
    (result.1 = true → ∀ config, Describes json config ↔ config = result.2.value) := by
  intro result
  cases decoded : decode json with
  | error problem =>
    have refused : result.1 = false := by simp [result, parseInto_error decoded]
    have unreadable : ¬ Readable json := by
      rw [readable_iff]
      rintro ⟨config, described⟩
      rw [decode_eq_ok_iff.2 described] at decoded
      cases decoded
    simp [refused, unreadable]
  | ok config =>
    have accepted : result.1 = true := by simp [result, parseInto_ok decoded]
    have found : result.2.value = config := by simp [result, parseInto_ok decoded]
    refine ⟨iff_of_true accepted (readable_iff.2 ⟨config, decode_eq_ok_iff.1 decoded⟩), ?_⟩
    intro _ other
    rw [← decode_eq_ok_iff, decoded, found, Except.ok.injEq, eq_comm]

end Config

end EventSieve
