import EventSieve.Proofs.Additions
import EventSieve.Proofs.ApiVersion

/-!
Groups of malformed API versions. An API version with more than one slash is a
group as a whole, and as no proper group has a slash it is none of these. Either
mode asks about a kind only the keys of its group and those of every group
(`AgreeOn`), so the keys of proper groups have no say about such an event.
-/

namespace EventSieve

namespace ApiVersion

/-- The group that a text names: what stands before its slash, or none if it has no slash. -/
def groupPart (text : String) : String :=
  if '/' ∈ text.toList then String.ofList (text.toList.takeWhile (· ≠ '/')) else ""

theorem Writes.group_eq {found : ApiVersion} {text : String} (writes : found.Writes text) :
    found.group = groupPart text := by
  rcases writes.spelled with rfl | ⟨core, rfl⟩
  · have before : ∀ c ∈ found.group.toList, decide (c ≠ '/') = true := by
      intro c member
      exact decide_eq_true fun slash => writes.bareGroup (slash ▸ member)
    have taken : (found.group ++ "/" ++ found.version).toList.takeWhile (· ≠ '/') = found.group.toList := by
      rw [String.toList_append, String.toList_append, List.append_assoc, List.takeWhile_append_of_pos before]
      simp
    rw [groupPart, if_pos (by simp), taken, String.ofList_toList]
  · rw [core, groupPart, if_neg writes.bareVersion]

theorem slash_mem_of_many {text : String} (many : 2 ≤ slashes text) : '/' ∈ text.toList := by
  refine List.count_pos_iff.1 ?_
  unfold slashes at many
  omega

end ApiVersion

open ApiVersion (slashes groupPart)

namespace Subject
variable {subject other : Subject}

theorem qualifiedKind_of_few (few : slashes subject.apiVersion ≤ 1) :
    subject.qualifiedKind = ⟨groupPart subject.apiVersion, subject.kind⟩ := by
  obtain ⟨found, writes⟩ := ApiVersion.exists_writes few
  rw [qualifiedKind, writes.read_eq, ← writes.group_eq]

theorem qualifiedKind_of_many (many : 2 ≤ slashes subject.apiVersion) :
    subject.qualifiedKind = ⟨subject.apiVersion, subject.kind⟩ := by
  rw [qualifiedKind, ApiVersion.read_of_slashes many]

theorem slash_mem_group_iff :
    '/' ∈ subject.qualifiedKind.group.toList ↔ 2 ≤ slashes subject.apiVersion := by
  by_cases few : slashes subject.apiVersion ≤ 1
  · obtain ⟨found, writes⟩ := ApiVersion.exists_writes few
    rw [qualifiedKind_of_few few, ← writes.group_eq]
    exact iff_of_false writes.bareGroup (by omega)
  · have many : 2 ≤ slashes subject.apiVersion := by omega
    rw [qualifiedKind_of_many many]
    exact iff_of_true (ApiVersion.slash_mem_of_many many) many

/-- What two objects have in common whose kinds are the same with their groups. -/
theorem qualifiedKind_eq_iff :
    subject.qualifiedKind = other.qualifiedKind ↔
      subject.kind = other.kind ∧
        ((slashes subject.apiVersion ≤ 1 ∧ slashes other.apiVersion ≤ 1 ∧
            groupPart subject.apiVersion = groupPart other.apiVersion) ∨
          (2 ≤ slashes subject.apiVersion ∧ 2 ≤ slashes other.apiVersion ∧
            subject.apiVersion = other.apiVersion)) := by
  constructor
  · intro same
    have sameKind : subject.kind = other.kind := by
      rw [← kind_qualifiedKind, ← kind_qualifiedKind, same]
    -- The slash in the group tells which sort both are of.
    have sameSort : 2 ≤ slashes subject.apiVersion ↔ 2 ≤ slashes other.apiVersion := by
      rw [← slash_mem_group_iff, same, slash_mem_group_iff]
    refine ⟨sameKind, ?_⟩
    by_cases many : 2 ≤ slashes subject.apiVersion
    · rw [qualifiedKind_of_many many, qualifiedKind_of_many (sameSort.1 many)] at same
      exact Or.inr ⟨many, sameSort.1 many, congrArg QualifiedKind.group same⟩
    · have few : slashes subject.apiVersion ≤ 1 := by omega
      have alsoFew : slashes other.apiVersion ≤ 1 := by
        have := mt sameSort.2 many
        omega
      rw [qualifiedKind_of_few few, qualifiedKind_of_few alsoFew] at same
      exact Or.inl ⟨few, alsoFew, congrArg QualifiedKind.group same⟩
  · rintro ⟨sameKind, ⟨few, alsoFew, sameGroup⟩ | ⟨many, alsoMany, sameText⟩⟩
    · rw [qualifiedKind_of_few few, qualifiedKind_of_few alsoFew, sameGroup, sameKind]
    · rw [qualifiedKind_of_many many, qualifiedKind_of_many alsoMany, sameText, sameKind]

end Subject

/-! ## Keys that have a say -/

/-- The group of the key is one that API versions can name: neither the star nor a text with a slash. -/
def QualifiedKind.HasProperGroup (key : QualifiedKind) : Prop := key.group ≠ "*" ∧ '/' ∉ key.group.toList

theorem QualifiedKind.HasProperGroup.ne_of_many {key : QualifiedKind} (proper : key.HasProperGroup) {text : String}
    (many : 2 ≤ slashes text) : key.group ≠ text :=
  fun same => proper.2 (same ▸ ApiVersion.slash_mem_of_many many)

/-- The keys of a group and those of every group are the same. -/
def AgreeOn (group : String) (isKey others : QualifiedKind → Prop) : Prop :=
  ∀ key, key.group = "*" ∨ key.group = group → (isKey key ↔ others key)

namespace RuleTable

/-- The table without the entries whose keys are not kept. -/
def restrict (table : RuleTable) (kept : QualifiedKind → Bool) : RuleTable :=
  ⟨table.entries.filter fun entry => kept entry.1⟩

theorem mem_keys_restrict {table : RuleTable} {kept : QualifiedKind → Bool} {key : QualifiedKind} :
    key ∈ (table.restrict kept).keys ↔ key ∈ table.keys ∧ kept key = true := by
  simp only [keys, restrict, List.mem_map, List.mem_filter]
  constructor
  · rintro ⟨entry, ⟨known, keeps⟩, rfl⟩
    exact ⟨⟨entry, known, rfl⟩, keeps⟩
  · rintro ⟨⟨entry, known, rfl⟩, keeps⟩
    exact ⟨entry, ⟨known, keeps⟩, rfl⟩

theorem agreeOn_restrict {group : String} {kept : QualifiedKind → Bool}
    (keeps : ∀ key : QualifiedKind, key.group = "*" ∨ key.group = group → kept key = true) (table : RuleTable) :
    AgreeOn group (· ∈ (table.restrict kept).keys) (· ∈ table.keys) :=
  fun key near => mem_keys_restrict.trans (and_iff_left (keeps key near))

theorem agreeOn_insert {group : String} {new : QualifiedKind} (star : new.group ≠ "*") (far : new.group ≠ group)
    (table : RuleTable) (flag : Bool) : AgreeOn group (· ∈ (table.insert new flag).keys) (· ∈ table.keys) := by
  intro key near
  have unlike : key ≠ new := by
    rintro rfl
    exact near.elim star far
  exact mem_keys_insert.trans (or_iff_right unlike)

end RuleTable

namespace Rule

theorem group_of_mem_exclusionKeys {actual key : QualifiedKind} (member : key ∈ exclusionKeys actual) :
    key.group = "*" ∨ key.group = actual.group := by
  simp only [exclusionKeys, List.mem_cons, List.not_mem_nil, or_false] at member
  rcases member with rfl | rfl | rfl | rfl <;> simp

theorem group_of_mem_inclusionKeys {actual key : QualifiedKind} (member : key ∈ inclusionKeys actual) :
    key.group = "*" ∨ key.group = actual.group := by
  simp only [inclusionKeys, List.mem_cons, List.not_mem_nil, or_false] at member
  rcases member with rfl | rfl | rfl | rfl <;> simp

end Rule

namespace KindFilter

theorem legacyCount_of_agreeOn {isKey others : QualifiedKind → Prop} [DecidablePred isKey] [DecidablePred others]
    {actual : QualifiedKind} (agree : AgreeOn actual.group isKey others) :
    legacyCount isKey actual = legacyCount others actual := by
  have own {kind : String} : isKey ⟨actual.group, kind⟩ ↔ others ⟨actual.group, kind⟩ := agree _ (Or.inr rfl)
  have wide {kind : String} : isKey ⟨"*", kind⟩ ↔ others ⟨"*", kind⟩ := agree _ (Or.inl rfl)
  simp only [legacyCount, own, wide]

theorem isIncluded_of_agreeOn {table other : RuleTable} {actual : QualifiedKind}
    (agree : AgreeOn actual.group (· ∈ table.keys) (· ∈ other.keys))
    (included : isIncluded actual table.rules false = true) : isIncluded actual other.rules false = true := by
  obtain ⟨⟨key, known, applies, plain⟩, unhidden⟩ := isIncluded_ofKey.1 included
  have near := Rule.group_of_mem_inclusionKeys applies
  refine isIncluded_ofKey.2 ⟨⟨key, (agree key near).1 known, applies, plain⟩, ?_⟩
  intro hider present hides
  exact unhidden hider ((agree hider (Rule.group_of_mem_exclusionKeys hides)).2 present) hides

/-- Either mode asks about a kind only the keys of its group and those of every group. -/
theorem copies_of_agreeOn (mode : KindMode) {table other : RuleTable} {actual : QualifiedKind}
    (agree : AgreeOn actual.group (· ∈ table.keys) (· ∈ other.keys)) :
    (ofTable mode table).copies actual = (ofTable mode other).copies actual := by
  cases mode with
  | legacy =>
    rw [copies_legacy_ofTable, copies_legacy_ofTable]
    exact legacyCount_of_agreeOn agree
  | exclusionFirst =>
    have same : isIncluded actual table.rules false = isIncluded actual other.rules false :=
      Bool.eq_iff_iff.2 ⟨isIncluded_of_agreeOn agree,
        isIncluded_of_agreeOn fun key near => (agree key near).symm⟩
    show (if isIncluded actual table.rules false then 1 else 0) = if isIncluded actual other.rules false then 1 else 0
    rw [same]

/-- What an empty table emits: nothing. -/
theorem copies_ofTable_empty (mode : KindMode) (actual : QualifiedKind) :
    (ofTable mode {}).copies actual = 0 := by
  cases mode <;> rfl

theorem emitted_of_many (mode : KindMode) {table other : RuleTable} {event : Event}
    (many : 2 ≤ slashes event.subject.apiVersion)
    (agree : AgreeOn event.subject.apiVersion (· ∈ table.keys) (· ∈ other.keys)) (events : List Event)
    (level : Level) :
    ((ofTable mode table).run events level).1.count event =
      ((ofTable mode other).run events level).1.count event := by
  have group : event.subject.qualifiedKind.group = event.subject.apiVersion := by
    rw [Subject.qualifiedKind_of_many many]
  rw [count_run, count_run, copies_of_agreeOn mode (group ▸ agree)]

/-- A malformed API version impersonates no group. The group of an object has a slash exactly when its
    API version has two or more, and then it is the API version as a whole; so objects have the same
    kind and group when they have the same kind and their API versions name one group, or are the same
    malformed text. An event with a malformed API version is emitted, in either mode, as often when a
    table keeps only the keys of every group and of that API version. A key of a proper group changes
    nothing about that, and such keys alone emit no such event. -/
theorem malformed_emissions (level : Level) :
    let resolved (subject : Subject) := (subject.resolve level).1
    (∀ subject : Subject,
      ('/' ∈ (resolved subject).group.toList ↔ 2 ≤ slashes subject.apiVersion) ∧
      ('/' ∈ (resolved subject).group.toList → (resolved subject).group = subject.apiVersion)) ∧
    (∀ subject other : Subject, resolved subject = resolved other ↔
      subject.kind = other.kind ∧
        ((slashes subject.apiVersion ≤ 1 ∧ slashes other.apiVersion ≤ 1 ∧
            groupPart subject.apiVersion = groupPart other.apiVersion) ∨
          (2 ≤ slashes subject.apiVersion ∧ 2 ≤ slashes other.apiVersion ∧
            subject.apiVersion = other.apiVersion))) ∧
    ∀ (mode : KindMode) (table : RuleTable) (events : List Event) (event : Event),
      2 ≤ slashes event.subject.apiVersion →
      let emitted (table : RuleTable) := ((ofTable mode table).run events level).1.count event
      emitted (table.restrict fun key => key.group = "*" ∨ key.group = event.subject.apiVersion) = emitted table ∧
      (∀ key flag, key.HasProperGroup → emitted (table.insert key flag) = emitted table) ∧
      ((∀ key ∈ table.keys, key.HasProperGroup) → emitted table = 0) := by
  intro resolved
  have result : ∀ subject, resolved subject = subject.qualifiedKind := fun subject =>
    subject.resolve_result level
  refine ⟨fun subject => ?_, fun subject other => ?_, fun mode table events event many => ?_⟩
  · rw [result]
    refine ⟨Subject.slash_mem_group_iff, fun slash => ?_⟩
    rw [Subject.qualifiedKind_of_many (Subject.slash_mem_group_iff.1 slash)]
  · rw [result, result]
    exact Subject.qualifiedKind_eq_iff
  · intro emitted
    refine ⟨?_, fun key flag proper => ?_, fun proper => ?_⟩
    · refine emitted_of_many mode many (RuleTable.agreeOn_restrict ?_ table) events level
      exact fun key near => decide_eq_true near
    · have agree := RuleTable.agreeOn_insert proper.1 (proper.ne_of_many many) table flag
      exact emitted_of_many mode many agree events level
    · have agree : AgreeOn event.subject.apiVersion (· ∈ table.keys) (· ∈ (RuleTable.mk []).keys) := by
        intro key near
        refine iff_of_false (fun known => ?_) List.not_mem_nil
        exact near.elim (proper key known).1 ((proper key known).ne_of_many many)
      have same : emitted table = emitted {} := emitted_of_many mode many agree events level
      rw [same]
      exact (count_run _ events event level).trans (by rw [copies_ofTable_empty, Nat.zero_mul])

/-- An event whose API version has two slashes is emitted for the key that spells it, and with or without
    the exclusion of its kind from the group before the first slash. That exclusion hides the same kind
    from an event of this group. -/
theorem malformed_emissions_apps :
    let event : Event := { place := 0, subject := { kind := "Deployment", apiVersion := "apps/v1/beta" } }
    let honest : Event := { place := 1, subject := { kind := "Deployment", apiVersion := "apps/v1" } }
    let table : RuleTable := .ofList [(⟨"apps/v1/beta", "Deployment"⟩, true), (⟨"apps", "Deployment"⟩, true)]
    let emitted (table : RuleTable) := ((ofTable .legacy table).run [event, honest] .info).1.count
    let hidden := table.insert ⟨"apps", "-Deployment"⟩ true
    2 ≤ slashes event.subject.apiVersion ∧ (QualifiedKind.mk "apps" "-Deployment").HasProperGroup ∧
    emitted hidden event = 1 ∧ emitted table honest = 1 ∧ emitted hidden honest = 0 := by
  intro event honest table emitted hidden
  have many : 2 ≤ slashes event.subject.apiVersion := by decide
  have proper : (QualifiedKind.mk "apps" "-Deployment").HasProperGroup := by
    exact ⟨by decide, by decide⟩
  obtain ⟨_, unchanged, _⟩ := (malformed_emissions .info).2.2 .legacy table [event, honest] event many
  have shown : emitted table event = 1 := by decide +kernel
  exact ⟨many, proper, (unchanged _ true proper).trans shown, by decide +kernel, by decide +kernel⟩

end KindFilter

end EventSieve
