import EventSieve.Proofs.KindModes
import EventSieve.Proofs.RuleTable

/-!
Legacy mode told from the keys as they were given. A filter keeps rules and
writes their keys anew, and the keys of a table come back from that as they
were. How often the filter emits an event (`legacyCount`) is therefore told from
the keys of the table, and from nothing but the set of them.
-/

namespace EventSieve

namespace RuleTable

/-- An insertion adds its own key to the keys, and takes out none. -/
theorem mem_keys_insert {table : RuleTable} {new key : QualifiedKind} {flag : Bool} :
    key ∈ (table.insert new flag).keys ↔ key = new ∨ key ∈ table.keys := by
  obtain ⟨entries⟩ := table
  simp only [keys, insert]
  induction entries with
  | nil => simp [insertEntry]
  | cons first rest ih =>
    unfold insertEntry
    by_cases before : new < first.1
    · simp [before]
    · by_cases same : new = first.1
      · rw [if_neg before, if_pos same]
        simp only [List.map_cons, List.mem_cons, same]
        tauto
      · rw [if_neg before, if_neg same]
        simp only [List.map_cons, List.mem_cons, ih]
        tauto

/-- The keys of a table are those of the pairs that filled it, whatever their flags and order. -/
theorem mem_keys_ofList {pairs : List (QualifiedKind × Bool)} {key : QualifiedKind} :
    key ∈ (ofList pairs).keys ↔ key ∈ pairs.map Prod.fst := by
  have filled : ∀ table : RuleTable,
      key ∈ (pairs.foldl (fun table pair => table.insert pair.1 pair.2) table).keys ↔
        key ∈ table.keys ∨ key ∈ pairs.map Prod.fst := by
    induction pairs with
    | nil => simp
    | cons pair rest ih =>
      intro table
      rw [List.foldl_cons, ih, mem_keys_insert, List.map_cons, List.mem_cons]
      tauto
  exact (filled {}).trans (by simp [keys])

end RuleTable

namespace KindFilter

/-- How often legacy mode emits an event about a kind, told from the set of keys: never where its
    own exclusion is one; otherwise once where its own key is one, and once more where there is a
    wide inclusion and no wide exclusion. -/
def legacyCount (isKey : QualifiedKind → Prop) [DecidablePred isKey] (actual : QualifiedKind) : Nat :=
  if isKey ⟨actual.group, "-" ++ actual.kind⟩ then 0
  else (if isKey actual then 1 else 0) +
    if (¬ isKey ⟨"*", "-" ++ actual.kind⟩ ∧ ¬ isKey ⟨actual.group, "-*"⟩) ∧
      (isKey ⟨"*", "*"⟩ ∨ isKey ⟨"*", actual.kind⟩ ∨ isKey ⟨actual.group, "*"⟩)
    then 1 else 0

theorem legacyCount_congr {isKey others : QualifiedKind → Prop} [DecidablePred isKey] [DecidablePred others]
    (same : ∀ key, isKey key ↔ others key) : legacyCount isKey = legacyCount others := by
  funext actual
  simp only [legacyCount, same]

/-- The keys that a filter writes for the rules of a table are those of the table. -/
@[simp] theorem keys_ofTable (mode : KindMode) (table : RuleTable) :
    (ofTable mode table).keys = table.keys :=
  table.map_key_rules

theorem copies_legacy {filter : KindFilter} (legacy : filter.mode = .legacy) (actual : QualifiedKind) :
    filter.copies actual = legacyCount (fun key => key ∈ filter.keys) actual := by
  rw [copies, legacy]
  exact legacyCopies_eq filter.keys actual

/-- In legacy mode a filter emits events as its keys tell, however it was made. -/
theorem run_legacy {filter : KindFilter} (legacy : filter.mode = .legacy) (events : List Event)
    (level : Level) :
    (Leaf.run (.kind filter) events level).1 =
      some (spread (fun event => legacyCount (fun key => key ∈ filter.keys) event.subject.qualifiedKind)
        events) := by
  have counted : filter.copiesOf = fun event =>
      legacyCount (fun key => key ∈ filter.keys) event.subject.qualifiedKind :=
    funext fun event => copies_legacy legacy event.subject.qualifiedKind
  rw [← counted, ← run_result filter events level]
  rfl

/-- Legacy mode emits each event, in order, as often as the keys tell, and its result is never absent.
    For a table, whatever its flags, the keys are its own, which are those that were put into it; for
    rules they are those that the rules write, of which neither order nor repetition counts. -/
theorem legacy_emissions (events : List Event) (level : Level) :
    let emitted (filter : KindFilter) := (Leaf.run (.kind filter) events level).1
    let counted (isKey : QualifiedKind → Prop) [DecidablePred isKey] := some <| events.flatMap fun event =>
      List.replicate (legacyCount isKey (event.subject.resolve level).1) event
    (∀ table : RuleTable, emitted (.ofTable .legacy table) = counted fun key => key ∈ table.keys) ∧
    (∀ pairs : List (QualifiedKind × Bool),
      emitted (.ofTable .legacy (.ofList pairs)) = counted fun key => key ∈ pairs.map Prod.fst) ∧
    (∀ rules : List Rule, emitted ⟨.legacy, rules⟩ = counted fun key => key ∈ rules.map Rule.key) ∧
    ∀ rules others : List Rule, (∀ key, key ∈ rules.map Rule.key ↔ key ∈ others.map Rule.key) →
      emitted ⟨.legacy, rules⟩ = emitted ⟨.legacy, others⟩ := by
  intro emitted counted
  have table : ∀ table : RuleTable, emitted (.ofTable .legacy table) = counted fun key => key ∈ table.keys := by
    intro table
    simp only [counted, Subject.resolve_result, ← keys_ofTable .legacy table]
    exact run_legacy rfl events level
  have rules : ∀ rules : List Rule, emitted ⟨.legacy, rules⟩ = counted fun key => key ∈ rules.map Rule.key := by
    intro rules
    simp only [counted, Subject.resolve_result]
    exact run_legacy rfl events level
  refine ⟨table, ?_, rules, ?_⟩
  · intro pairs
    have given : legacyCount (fun key => key ∈ (RuleTable.ofList pairs).keys) =
        legacyCount fun key => key ∈ pairs.map Prod.fst :=
      legacyCount_congr fun key => RuleTable.mem_keys_ofList
    rw [table]
    simp only [counted, given]
  · intro first second same
    rw [rules, rules]
    simp only [counted, legacyCount_congr same]

/-- Rules in another order and with one of them repeated, and an event that both emit twice. -/
theorem legacy_emissions_reordered :
    let pod := Rule.ofKey ⟨"", "Pod"⟩
    let all := Rule.ofKey ⟨"*", "*"⟩
    let event : Event := { place := 0, subject := { kind := "Pod", apiVersion := "v1" } }
    (∀ key, key ∈ [pod, all].map Rule.key ↔ key ∈ [all, pod, all].map Rule.key) ∧
    (Leaf.run (.kind ⟨.legacy, [all, pod, all]⟩) [event] .info).1 = some [event, event] := by
  intro pod all event
  have same : ∀ key, key ∈ [pod, all].map Rule.key ↔ key ∈ [all, pod, all].map Rule.key := by
    intro key
    simp only [List.map_cons, List.map_nil, List.mem_cons, List.not_mem_nil, or_false]
    tauto
  have emitted : (Leaf.run (.kind ⟨.legacy, [pod, all]⟩) [event] .info).1 = some [event, event] := by
    decide +kernel
  exact ⟨same, ((legacy_emissions [event] .info).2.2.2 _ _ same).symm.trans emitted⟩

end KindFilter

end EventSieve
