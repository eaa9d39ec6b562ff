import EventSieve.Proofs.LegacyKeys

/-!
One more key for a kind filter. What either mode emits of a kind is told from
the keys that include it and those that exclude it, and the latter all have a
minus sign. A key without one therefore leaves the exclusions as they are and
hides nothing; a key with one leaves the inclusions of the kinds without a minus
sign as they are, and adds nothing to what is emitted of them.
-/

namespace EventSieve

/-- The second has the keys of the first, and what else it has is of the sort. -/
structure Grows (sort : QualifiedKind → Prop) (isKey more : QualifiedKind → Prop) : Prop where
  kept : ∀ key, isKey key → more key
  new : ∀ key, more key → isKey key ∨ sort key

namespace Grows
variable {sort isKey more : QualifiedKind → Prop}

/-- Keys of no other sort are the same before and after. -/
theorem iff_of_not (grows : Grows sort isKey more) {key : QualifiedKind} (other : ¬ sort key) :
    more key ↔ isKey key :=
  ⟨fun known => (grows.new key known).resolve_right other, grows.kept key⟩

theorem insert {table : RuleTable} {key : QualifiedKind} (sorted : sort key) (flag : Bool) :
    Grows sort (· ∈ table.keys) (· ∈ (table.insert key flag).keys) := by
  constructor
  · intro other known
    exact RuleTable.mem_keys_insert.2 (Or.inr known)
  · intro other known
    rcases RuleTable.mem_keys_insert.1 known with rfl | before
    · exact Or.inr sorted
    · exact Or.inl before

end Grows

/-- Keys of inclusions are added. -/
abbrev GrowsByInclusions : (QualifiedKind → Prop) → (QualifiedKind → Prop) → Prop :=
  Grows fun key => ¬ IsMinused key.kind

/-- Keys of exclusions are added. -/
abbrev GrowsByExclusions : (QualifiedKind → Prop) → (QualifiedKind → Prop) → Prop :=
  Grows fun key => IsMinused key.kind

namespace KindFilter

theorem one_if_le {p q : Prop} [Decidable p] [Decidable q] (implied : p → q) :
    (if p then 1 else 0) ≤ if q then 1 else 0 := by
  by_cases holds : p
  · simp [holds, implied holds]
  · simp [holds]

/-! ## Legacy mode -/

section
variable {isKey more : QualifiedKind → Prop} [DecidablePred isKey] [DecidablePred more]

theorem legacyCount_le_of_inclusions (grows : GrowsByInclusions isKey more) (actual : QualifiedKind) :
    legacyCount isKey actual ≤ legacyCount more actual := by
  -- Whatever hides the kind has a minus sign, so it is no new key.
  have star : IsMinused "-*" := by decide
  have wholeGroup : more ⟨actual.group, "-*"⟩ ↔ isKey ⟨actual.group, "-*"⟩ :=
    grows.iff_of_not (not_not_intro star)
  have named {group : String} : more ⟨group, "-" ++ actual.kind⟩ ↔ isKey ⟨group, "-" ++ actual.kind⟩ :=
    grows.iff_of_not (not_not_intro (isMinused_append actual.kind))
  simp only [legacyCount, wholeGroup, named]
  by_cases hidden : isKey ⟨actual.group, "-" ++ actual.kind⟩
  · rw [if_pos hidden]
    exact Nat.zero_le _
  · rw [if_neg hidden, if_neg hidden]
    refine Nat.add_le_add (one_if_le (grows.kept actual)) (one_if_le ?_)
    rintro ⟨shown, wide⟩
    exact ⟨shown, wide.imp (grows.kept _) (Or.imp (grows.kept _) (grows.kept _))⟩

theorem legacyCount_le_of_exclusions (grows : GrowsByExclusions isKey more) {actual : QualifiedKind}
    (plain : ¬ IsMinused actual.kind) : legacyCount more actual ≤ legacyCount isKey actual := by
  -- Nothing that shows the kind has a minus sign, its own key included, so it is no new key.
  have star : ¬ IsMinused "*" := by decide
  have wholeGroup {group : String} : more ⟨group, "*"⟩ ↔ isKey ⟨group, "*"⟩ := grows.iff_of_not star
  have named {group : String} : more ⟨group, actual.kind⟩ ↔ isKey ⟨group, actual.kind⟩ :=
    grows.iff_of_not plain
  simp only [legacyCount, wholeGroup, named]
  by_cases hidden : more ⟨actual.group, "-" ++ actual.kind⟩
  · rw [if_pos hidden]
    exact Nat.zero_le _
  · rw [if_neg hidden, if_neg (mt (grows.kept _) hidden)]
    refine Nat.add_le_add_left (one_if_le ?_) _
    rintro ⟨⟨everywhere, inGroup⟩, wide⟩
    exact ⟨⟨mt (grows.kept _) everywhere, mt (grows.kept _) inGroup⟩, wide⟩

end

/-! ## Exclusion-first mode -/

theorem isIncluded_of_inclusions {table larger : RuleTable}
    (grows : GrowsByInclusions (· ∈ table.keys) (· ∈ larger.keys)) {actual : QualifiedKind}
    (included : isIncluded actual table.rules false = true) :
    isIncluded actual larger.rules false = true := by
  obtain ⟨⟨key, known, applies⟩, unhidden⟩ := isIncluded_ofKey.1 included
  refine isIncluded_ofKey.2 ⟨⟨key, grows.kept key known, applies⟩, ?_⟩
  intro other present hides
  have before := (grows.iff_of_not (not_not_intro (Rule.isMinused_of_mem_exclusionKeys hides))).1 present
  exact unhidden other before hides

theorem isIncluded_of_exclusions {table larger : RuleTable}
    (grows : GrowsByExclusions (· ∈ table.keys) (· ∈ larger.keys)) {actual : QualifiedKind}
    (included : isIncluded actual larger.rules false = true) :
    isIncluded actual table.rules false = true := by
  obtain ⟨⟨key, known, applies, plain⟩, unhidden⟩ := isIncluded_ofKey.1 included
  have before := (grows.iff_of_not plain).1 known
  refine isIncluded_ofKey.2 ⟨⟨key, before, applies, plain⟩, ?_⟩
  exact fun other present => unhidden other (grows.kept other present)

/-! ## Both modes -/

theorem copies_legacy_ofTable (table : RuleTable) (actual : QualifiedKind) :
    (ofTable .legacy table).copies actual = legacyCount (· ∈ table.keys) actual := by
  have legacy : (ofTable .legacy table).mode = .legacy := rfl
  simp only [copies_legacy legacy, keys_ofTable]

theorem copies_le_of_inclusions (mode : KindMode) {table larger : RuleTable}
    (grows : GrowsByInclusions (· ∈ table.keys) (· ∈ larger.keys)) (actual : QualifiedKind) :
    (ofTable mode table).copies actual ≤ (ofTable mode larger).copies actual := by
  cases mode with
  | legacy =>
    rw [copies_legacy_ofTable, copies_legacy_ofTable]
    exact legacyCount_le_of_inclusions grows actual
  | exclusionFirst =>
    exact one_if_le (isIncluded_of_inclusions grows)

theorem copies_le_of_exclusions (mode : KindMode) {table larger : RuleTable}
    (grows : GrowsByExclusions (· ∈ table.keys) (· ∈ larger.keys)) {actual : QualifiedKind}
    (plain : ¬ IsMinused actual.kind) :
    (ofTable mode larger).copies actual ≤ (ofTable mode table).copies actual := by
  cases mode with
  | legacy =>
    rw [copies_legacy_ofTable, copies_legacy_ofTable]
    exact legacyCount_le_of_exclusions grows plain
  | exclusionFirst =>
    exact one_if_le (isIncluded_of_exclusions grows)

/-- One more key, in either mode. An inclusion never makes a filter emit an event less often, and an
    exclusion never more often when the kind of the event has no minus sign of its own. -/
theorem emitted_with_key (mode : KindMode) (table : RuleTable) (key : QualifiedKind) (flag : Bool)
    (events : List Event) (event : Event) (level : Level) :
    let emitted (table : RuleTable) := ((ofTable mode table).run events level).1.count event
    (∀ other, other ∈ (table.insert key flag).keys ↔ other = key ∨ other ∈ table.keys) ∧
    (¬ IsMinused key.kind → emitted table ≤ emitted (table.insert key flag)) ∧
    (IsMinused key.kind → ¬ IsMinused event.subject.kind →
      emitted (table.insert key flag) ≤ emitted table) := by
  intro emitted
  have counted : ∀ table : RuleTable, emitted table =
      (ofTable mode table).copies event.subject.qualifiedKind * events.count event := by
    intro table
    simp only [emitted, run_result, count_spread, copiesOf]
  refine ⟨fun other => RuleTable.mem_keys_insert, ?_, ?_⟩
  · intro inclusion
    rw [counted, counted]
    exact Nat.mul_le_mul_right _ (copies_le_of_inclusions mode (.insert inclusion flag) _)
  · intro exclusion plain
    rw [← Subject.kind_qualifiedKind] at plain
    rw [counted, counted]
    exact Nat.mul_le_mul_right _ (copies_le_of_exclusions mode (.insert exclusion flag) plain)

/-- To a table that includes pods by their own key, a key for everything adds a second emission in
    legacy mode, which an exclusion of pods in every group takes back. -/
theorem emitted_with_key_pod :
    let table : RuleTable := .ofList [(⟨"", "Pod"⟩, true)]
    let wide := table.insert ⟨"*", "*"⟩ true
    let event : Event := { place := 0, subject := { kind := "Pod", apiVersion := "v1" } }
    let emitted (table : RuleTable) := ((ofTable .legacy table).run [event] .info).1.count event
    ¬ IsMinused "*" ∧ IsMinused "-Pod" ∧ ¬ IsMinused event.subject.kind ∧
    emitted table = 1 ∧ emitted wide = 2 ∧ emitted (wide.insert ⟨"*", "-Pod"⟩ false) = 1 ∧
    emitted table ≤ emitted wide ∧ emitted (wide.insert ⟨"*", "-Pod"⟩ false) ≤ emitted wide := by
  intro table wide event emitted
  have inclusion : ¬ IsMinused "*" := by decide
  have exclusion : IsMinused "-Pod" := by decide
  have plain : ¬ IsMinused event.subject.kind := by decide
  obtain ⟨_, more, _⟩ := emitted_with_key .legacy table ⟨"*", "*"⟩ true [event] event .info
  obtain ⟨_, _, fewer⟩ := emitted_with_key .legacy wide ⟨"*", "-Pod"⟩ false [event] event .info
  exact ⟨inclusion, exclusion, plain, by decide +kernel, by decide +kernel, by decide +kernel,
    more inclusion, fewer exclusion plain⟩

end KindFilter

end EventSieve
