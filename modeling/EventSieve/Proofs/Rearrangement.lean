import EventSieve.Proofs.Format
import EventSieve.Proofs.Selection
import Mathlib.Algebra.Group.Int.Defs
import Mathlib.Data.List.Forall2

/-!
Settings in another arrangement. JSON values are the same when they differ in
the order of members alone (`Json.Same`), and two objects are rearranged when
the lists that count have the same elements, in any order and repeated at will,
and the other members that count are the same (`Config.Rearranged`). Rearranged
objects describe settings that differ in the order and repetition of allowed
texts alone, so chains are built for both or for neither, and both return the
same.
-/

namespace EventSieve

namespace Json

/-- The same value, whatever the order of members and the exponents of numbers. -/
inductive Same : Json → Json → Prop
  | null : Same .null .null
  | bool (value : Bool) : Same (.bool value) (.bool value)
  | number {mantissa other : Int} {exponent otherExponent : Nat}
      (equal : mantissa * 10 ^ otherExponent = other * 10 ^ exponent) :
      Same (.number mantissa exponent) (.number other otherExponent)
  | string (value : String) : Same (.string value) (.string value)
  | array {items others : List Json} (each : List.Forall₂ Same items others) :
      Same (.array items) (.array others)
  | object {members others : List (String × Json)}
      (each : ∀ key, Option.Rel Same (member? (.object members) key) (member? (.object others) key)) :
      Same (.object members) (.object others)

theorem member_cons (first : String × Json) (rest : List (String × Json)) (key : String) :
    member? (.object (first :: rest)) key = if first.1 = key then some first.2 else member? (.object rest) key := by
  by_cases here : first.1 = key <;> simp [member?, here]

mutual

theorem Same.refl : (json : Json) → Same json json
  | .null => .null
  | .bool value => .bool value
  | .number _ _ => .number rfl
  | .string value => .string value
  | .array items => .array (forall₂_same_refl items)
  | .object members => .object (rel_member_refl members)

theorem forall₂_same_refl : (items : List Json) → List.Forall₂ Same items items
  | [] => .nil
  | item :: rest => .cons (Same.refl item) (forall₂_same_refl rest)

theorem rel_member_refl : (members : List (String × Json)) → (key : String) →
    Option.Rel Same (member? (.object members) key) (member? (.object members) key)
  | [], _ => .none
  | (name, value) :: rest, key => by
    rw [member_cons]
    by_cases here : name = key
    · rw [if_pos here]
      exact .some (Same.refl value)
    · rw [if_neg here]
      exact rel_member_refl rest key

end

theorem Same.symm {json other : Json} (same : Same json other) : Same other json := by
  -- The induction is on the derivation, with those for lists and for members inside it.
  refine @Same.rec (fun json other _ => Same other json) (fun items others _ => List.Forall₂ Same others items)
    (fun found other _ => Option.Rel Same other found) .null .bool ?_ .string ?_ ?_ .nil ?_ ?_ .none json other same
  · intro _ _ _ _ equal
    exact .number equal.symm
  · intro items others _ each
    exact .array each
  · intro members others _ each
    exact .object each
  · intro _ _ _ _ _ _ here further
    exact .cons here further
  · intro _ _ _ here
    exact .some here

theorem rel_symm {found other : Option Json} (same : Option.Rel Same found other) :
    Option.Rel Same other found := by
  cases same with
  | some same => exact .some same.symm
  | none => exact .none

theorem Same.isObject_eq {json other : Json} (same : Same json other) : json.isObject = other.isObject := by
  cases same <;> rfl

theorem Same.member {json other : Json} (same : Same json other) (key : String) :
    Option.Rel Same (json.member? key) (other.member? key) := by
  cases same with
  | object each => exact each key
  | _ => exact .none

/-- The same elements, in any order and with any repetitions. -/
structure SameItems (items others : List Json) : Prop where
  forth : ∀ item ∈ items, ∃ other ∈ others, Same item other
  back : ∀ other ∈ others, ∃ item ∈ items, Same other item

/-- Both absent, lists of the same elements, or the same value. -/
inductive Alike : Option Json → Option Json → Prop
  | absent : Alike none none
  | lists {items others : List Json} (same : SameItems items others) :
      Alike (some (.array items)) (some (.array others))
  | same {value other : Json} (same : Same value other) : Alike (some value) (some other)

theorem SameItems.symm {items others : List Json} (same : SameItems items others) : SameItems others items :=
  ⟨same.back, same.forth⟩

theorem sameItems_of_forall₂ {items others : List Json} (each : List.Forall₂ Same items others) :
    SameItems items others := by
  induction each with
  | nil => exact ⟨by simp, by simp⟩
  | cons here _ ih =>
    refine ⟨List.forall_mem_cons.2 ⟨⟨_, List.mem_cons_self, here⟩, ?_⟩,
      List.forall_mem_cons.2 ⟨⟨_, List.mem_cons_self, here.symm⟩, ?_⟩⟩
    · intro item member
      obtain ⟨other, known, same⟩ := ih.forth item member
      exact ⟨other, List.mem_cons_of_mem _ known, same⟩
    · intro other member
      obtain ⟨item, known, same⟩ := ih.back other member
      exact ⟨item, List.mem_cons_of_mem _ known, same⟩

theorem Alike.symm {found other : Option Json} (alike : Alike found other) : Alike other found := by
  cases alike with
  | absent => exact .absent
  | lists same => exact .lists same.symm
  | same same => exact .same same.symm

end Json

/-! ## Rearranged objects -/

namespace Config

/-- The objects differ in the arrangement of lists and in members that do not count. -/
structure Rearranged (json other : Json) : Prop where
  isObject : json.isObject = true
  isObjectToo : other.isObject = true
  scalars : ∀ key ∈ ["WarningsOnly", "KindMatchMode", "Around", "AroundDuration"],
    Option.Rel Json.Same (json.member? key) (other.member? key)
  lists : ∀ key ∈ ["Namespaces", "Names", "UIDs", "Reasons", "Components", "Kinds"],
    Json.Alike (json.member? key) (other.member? key)

theorem Rearranged.symm {json other : Json} (rearranged : Rearranged json other) : Rearranged other json :=
  ⟨rearranged.isObjectToo, rearranged.isObject, fun key known => Json.rel_symm (rearranged.scalars key known),
    fun key known => (rearranged.lists key known).symm⟩

/-- Where a value is written in one way only, the same member stands for it. -/
theorem stands_same {α : Type} {json other : Json} {key : String} {write : α → Json} {standard value : α}
    (rigid : ∀ found, Json.Same (write value) found → found = write value)
    (same : Option.Rel Json.Same (json.member? key) (other.member? key))
    (stands : Stands json key write standard value) : Stands other key write standard value := by
  unfold Stands at *
  generalize json.member? key = member at *
  generalize other.member? key = another at *
  cases same with
  | none => exact stands
  | some same =>
    rw [show _ = write value from stands] at same
    exact rigid _ same

theorem bool_rigid (value : Bool) (found : Json) (same : Json.Same (.bool value) found) : found = .bool value := by
  cases same
  rfl

theorem string_rigid (value : String) (found : Json) (same : Json.Same (.string value) found) :
    found = .string value := by
  cases same
  rfl

theorem stands_items {json other : Json} {key : String} {items : List Json}
    (alike : Json.Alike (json.member? key) (other.member? key)) (stands : Stands json key .array [] items) :
    ∃ others, Stands other key .array [] others ∧ Json.SameItems items others := by
  unfold Stands at *
  generalize json.member? key = member at *
  generalize other.member? key = another at *
  cases alike with
  | absent =>
    rw [show items = [] from stands]
    exact ⟨[], rfl, by simp, by simp⟩
  | lists same =>
    obtain rfl := Json.array.inj stands
    exact ⟨_, rfl, same⟩
  | same same =>
    rw [show _ = Json.array items from stands] at same
    cases same with
    | array each => exact ⟨_, rfl, Json.sameItems_of_forall₂ each⟩

/-- A list of texts is a list of the elements that write them. -/
theorem stands_texts_iff {json : Json} {key : String} {values : List String} :
    Stands json key .texts [] values ↔ Stands json key .array [] (values.map .string) := by
  unfold Stands
  cases json.member? key with
  | none => simp
  | some found => rfl

theorem exists_texts {items : List Json} (each : ∀ item ∈ items, ∃ text, item = .string text) :
    ∃ texts : List String, items = texts.map .string := by
  induction items with
  | nil => exact ⟨[], rfl⟩
  | cons item rest ih =>
    obtain ⟨⟨text, rfl⟩, further⟩ := List.forall_mem_cons.1 each
    obtain ⟨texts, rfl⟩ := ih further
    exact ⟨text :: texts, rfl⟩

theorem stands_texts {json other : Json} {key : String} {values : List String}
    (alike : Json.Alike (json.member? key) (other.member? key)) (stands : Stands json key .texts [] values) :
    ∃ others, Stands other key .texts [] others ∧ ∀ text, text ∈ values ↔ text ∈ others := by
  obtain ⟨items, there, same⟩ := stands_items alike (stands_texts_iff.1 stands)
  have each : ∀ item ∈ items, ∃ text ∈ values, item = .string text := by
    intro item member
    obtain ⟨written, known, equal⟩ := same.back item member
    obtain ⟨text, given, rfl⟩ := List.mem_map.1 known
    exact ⟨text, given, string_rigid text item equal.symm⟩
  obtain ⟨others, rfl⟩ := exists_texts fun item member => (each item member).imp fun _ found => found.2
  refine ⟨others, stands_texts_iff.2 there, ?_⟩
  intro text
  constructor
  · intro given
    obtain ⟨found, known, equal⟩ := same.forth (.string text) (List.mem_map_of_mem given)
    obtain ⟨_, also, rfl⟩ := List.mem_map.1 known
    rw [Json.string.inj (string_rigid text _ equal)] at also
    exact also
  · intro given
    obtain ⟨found, known, equal⟩ := each (.string text) (List.mem_map_of_mem given)
    rw [Json.string.inj equal]
    exact known

theorem describesKey_same {item other : Json} (same : Json.Same item other) {key : QualifiedKind}
    (described : DescribesKey item key) : DescribesKey other key := by
  refine ⟨same.isObject_eq ▸ described.isObject, ?_, described.named,
    stands_same (string_rigid key.group) (same.member "Group") described.group⟩
  have kind := same.member "Kind"
  rw [described.kind] at kind
  generalize other.member? "Kind" = found at *
  cases kind with
  | some equal => rw [string_rigid _ _ equal]

theorem describesKinds_same {items others : List Json} (same : Json.SameItems items others) {kinds : RuleTable}
    (described : DescribesKinds items kinds) : DescribesKinds others kinds := by
  refine ⟨?_, described.comprised.congr fun key => ?_⟩
  · intro other member
    obtain ⟨item, known, equal⟩ := same.back other member
    obtain ⟨key, written⟩ := described.each item known
    exact ⟨key, describesKey_same equal.symm written⟩
  · constructor
    · rintro ⟨item, member, written⟩
      obtain ⟨other, known, equal⟩ := same.forth item member
      exact ⟨other, known, describesKey_same equal written⟩
    · rintro ⟨other, member, written⟩
      obtain ⟨item, known, equal⟩ := same.back other member
      exact ⟨item, known, describesKey_same equal written⟩

/-! ## Settings that differ in the arrangement of texts -/

/-- The settings differ in the order and repetition of allowed texts alone. -/
structure Alike (config other : Config) : Prop where
  warningsOnly : other.warningsOnly = config.warningsOnly
  accepted : ∀ field text, text ∈ config.accepted field ↔ text ∈ other.accepted field
  kinds : other.kinds = config.kinds
  mode : other.mode = config.mode
  around : other.around = config.around
  aroundSpan : other.aroundSpan = config.aroundSpan

theorem Alike.admits_iff {config other : Config} (alike : config.Alike other) (event : Event) :
    config.Admits event ↔ other.Admits event := by
  have sameTexts : ∀ field, config.accepted field = [] ↔ other.accepted field = [] := by
    intro field
    simp only [List.eq_nil_iff_forall_not_mem, alike.accepted]
  rw [Config.admits_iff, Config.admits_iff, alike.warningsOnly]
  simp only [sameTexts, alike.accepted]

theorem Alike.outcome_eq {config other : Config} (alike : config.Alike other) (events : List Event) :
    config.outcome events = other.outcome events := by
  have copies : config.copies = other.copies := by
    funext event
    rw [Config.copies, Config.copies, alike.kinds, alike.mode]
  have selected : config.selected events = other.selected events := by
    simp only [Config.selected, alike.admits_iff, copies]
  rw [outcome, outcome, selected, alike.around, alike.aroundSpan]

theorem describes_rearranged {json other : Json} (rearranged : Rearranged json other) {config : Config}
    (described : Describes json config) : ∃ found, Describes other found ∧ config.Alike found := by
  obtain ⟨_, isObject, scalar, list⟩ := rearranged
  obtain ⟨namespaces, ofNamespaces, sameNamespaces⟩ := stands_texts (list "Namespaces" (by decide)) described.namespaces
  obtain ⟨names, ofNames, sameNames⟩ := stands_texts (list "Names" (by decide)) described.names
  obtain ⟨uids, ofUids, sameUids⟩ := stands_texts (list "UIDs" (by decide)) described.uids
  obtain ⟨reasons, ofReasons, sameReasons⟩ := stands_texts (list "Reasons" (by decide)) described.reasons
  obtain ⟨components, ofComponents, sameComponents⟩ :=
    stands_texts (list "Components" (by decide)) described.components
  obtain ⟨items, ofItems, ofKinds⟩ := described.kinds
  obtain ⟨others, ofOthers, sameItems⟩ := stands_items (list "Kinds" (by decide)) ofItems
  obtain ⟨modeText, ofModeText, ofMode⟩ := described.mode
  obtain ⟨spanText, ofSpanText, ofSpan⟩ := described.aroundSpan
  refine ⟨{ config with namespaces, names, uids, reasons, components }, ?_, ?_⟩
  · exact {
      isObject := isObject
      warningsOnly := stands_same (bool_rigid _) (scalar _ (by decide)) described.warningsOnly
      namespaces := ofNamespaces
      names := ofNames
      uids := ofUids
      reasons := ofReasons
      components := ofComponents
      kinds := ⟨others, ofOthers, describesKinds_same sameItems ofKinds⟩
      mode := ⟨modeText, stands_same (string_rigid _) (scalar _ (by decide)) ofModeText, ofMode⟩
      around := stands_same (string_rigid _) (scalar _ (by decide)) described.around
      aroundSpan := ⟨spanText, stands_same (string_rigid _) (scalar _ (by decide)) ofSpanText, ofSpan⟩ }
  · refine ⟨rfl, ?_, rfl, rfl, rfl, rfl⟩
    intro field
    cases field with
    | ns => exact sameNamespaces
    | name => exact sameNames
    | uid => exact sameUids
    | reason => exact sameReasons
    | component => exact sameComponents

/-! ## Chains built from rearranged objects -/

theorem run_stages (config : Config) (channel : String) (events : List Event) (level : Level) :
    ((Filter.chain ((config.stages channel).map .leaf)).run events level).1 = config.outcome events := by
  rw [Filter.run_chain_result, Filter.leavesAll_map_leaf, stages_result]

theorem readAndBuild_ok {json : Json} {config : Config} (decoded : decode json = .ok config)
    (channel complaint : String) (level : Level) :
    (readAndBuild Filter.leaf json channel ⟨[], complaint⟩ level).1 =
      (true, ⟨(config.stages channel).map .leaf, ""⟩) := by
  simp [readAndBuild, parse, decoded, build_result]

theorem rearranged_ok {json other : Json} (rearranged : Rearranged json other) {config : Config}
    (decoded : decode json = .ok config) : ∃ found, decode other = .ok found ∧ config.Alike found := by
  obtain ⟨found, described, alike⟩ := describes_rearranged rearranged (decode_eq_ok_iff.1 decoded)
  exact ⟨found, decode_eq_ok_iff.2 described, alike⟩

/-- From rearranged objects chains are built for both or for neither, and both chains return the
    same on all events, in either mode. -/
theorem readAndBuild_rearranged (json other : Json) (rearranged : Rearranged json other)
    (channel complaint : String) (level : Level) :
    let first := (readAndBuild Filter.leaf json channel ⟨[], complaint⟩ level).1
    let second := (readAndBuild Filter.leaf other channel ⟨[], complaint⟩ level).1
    first.1 = second.1 ∧ ∀ events atRun,
      ((Filter.chain first.2.value).run events atRun).1 = ((Filter.chain second.2.value).run events atRun).1 := by
  intro first second
  cases decoded : decode json with
  | ok config =>
    obtain ⟨found, decodedToo, alike⟩ := rearranged_ok rearranged decoded
    have here : first = _ := readAndBuild_ok decoded channel complaint level
    have there : second = _ := readAndBuild_ok decodedToo channel complaint level
    rw [here, there]
    refine ⟨rfl, fun events atRun => ?_⟩
    rw [run_stages, run_stages, alike.outcome_eq]
  | error problem =>
    cases decodedToo : decode other with
    | ok found =>
      obtain ⟨config, also, _⟩ := rearranged_ok rearranged.symm decodedToo
      rw [decoded] at also
      cases also
    | error another =>
      have here : first = _ := congrArg Prod.fst (readAndBuild_error Filter.leaf decoded channel _ level)
      have there : second = _ := congrArg Prod.fst (readAndBuild_error Filter.leaf decodedToo channel _ level)
      rw [here, there]
      exact ⟨rfl, fun _ _ => rfl⟩

/-- Two arrangements of the settings of a legacy filter on pods and jobs. -/
theorem readAndBuild_rearranged_jobs :
    let pod : Json := .object [("Kind", .string "Pod")]
    let job : Json := .object [("Kind", .string "Job"), ("Group", .string "batch")]
    let sameJob : Json := .object [("Group", .string "batch"), ("Kind", .string "Job")]
    let json : Json := .object [("Namespaces", .array [.string "dev", .string "test"]),
      ("KindMatchMode", .string "legacy"), ("Kinds", .array [pod, job])]
    let other : Json := .object [("Kinds", .array [sameJob, pod, job]), ("KindMatchMode", .string "legacy"),
      ("Comment", .null), ("Namespaces", .array [.string "test", .string "dev", .string "test"])]
    let chain (json : Json) := (readAndBuild Filter.leaf json "/window" ⟨[], ""⟩ .info).1
    let event : Event :=
      { place := 0, subject := { ns := "test", kind := "Job", apiVersion := "batch/v1" } }
    Rearranged json other ∧ (chain other).1 = true ∧
      ((Filter.chain (chain other).2.value).run [event] .info).1 = some [event] := by
  intro pod job sameJob json other chain event
  have jobs : Json.Same job sameJob := .object fun key => by
    by_cases kind : "Kind" = key
    · subst kind
      exact .some (.refl (.string "Job"))
    · by_cases group : "Group" = key
      · subst group
        exact .some (.refl (.string "batch"))
      · simp only [Json.member_cons, if_neg kind, if_neg group]
        exact .none
  have namespaces : Json.SameItems [.string "dev", .string "test"]
      [.string "test", .string "dev", .string "test"] := by
    refine ⟨?_, ?_⟩ <;> simp only [List.forall_mem_cons]
    · exact ⟨⟨_, by simp, .refl (.string "dev")⟩, ⟨_, by simp, .refl (.string "test")⟩, by simp⟩
    · exact ⟨⟨_, by simp, .refl (.string "test")⟩, ⟨_, by simp, .refl (.string "dev")⟩,
        ⟨_, by simp, .refl (.string "test")⟩, by simp⟩
  have kinds : Json.SameItems [pod, job] [sameJob, pod, job] := by
    refine ⟨?_, ?_⟩ <;> simp only [List.forall_mem_cons]
    · exact ⟨⟨pod, by simp, .refl pod⟩, ⟨sameJob, by simp, jobs⟩, by simp⟩
    · exact ⟨⟨job, by simp, jobs.symm⟩, ⟨pod, by simp, .refl pod⟩, ⟨job, by simp, .refl job⟩, by simp⟩
  have rearranged : Rearranged json other := by
    refine ⟨rfl, rfl, ?_, ?_⟩ <;> simp only [List.forall_mem_cons]
    · exact ⟨.none, .some (.refl (.string "legacy")), .none, .none, by simp⟩
    · exact ⟨.lists namespaces, .absent, .absent, .absent, .absent, .lists kinds, by simp⟩
  obtain ⟨both, alike⟩ := readAndBuild_rearranged json other rearranged "/window" "" .info
  refine ⟨rearranged, both.symm.trans (by decide +kernel), (alike [event] .info).symm.trans ?_⟩
  decide +kernel

end Config

end EventSieve
