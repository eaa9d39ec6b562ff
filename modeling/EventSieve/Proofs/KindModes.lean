import EventSieve.Proofs.RuleKey
import EventSieve.Proofs.Stage
import Mathlib.Tactic.ByContra

/-!
The two modes of kind filters against each other, over rules that can be
written. Both are told from the set of keys: exclusion-first mode asks whether
the kind has a key of an inclusion and none of an exclusion, legacy mode counts
the kind's own key and one of a wide inclusion. Exclusion-first mode never emits
more, and the kinds that legacy mode alone lets through are given by their keys
(`LegacyOnly`).
-/

namespace EventSieve.KindFilter

/-! ## Exclusion-first mode -/

/-- The rules are weighed as sets: an inclusion applies and no exclusion does. -/
theorem isIncluded_iff {actual : QualifiedKind} {rules : List Rule} {included : Bool} :
    isIncluded actual rules included = true ↔
      (included = true ∨ ∃ rule ∈ rules, rule.admits actual = true ∧ rule.negated = false) ∧
      ∀ rule ∈ rules, rule.admits actual = true → rule.negated = false := by
  induction rules generalizing included with
  | nil => simp [isIncluded]
  | cons rule rest ih =>
    unfold isIncluded
    cases applies : rule.admits actual with
    | false => simp [applies, ih]
    | true =>
      cases negative : rule.negated with
      | false => simp [applies, negative, ih]
      | true => simp [applies, negative]

theorem isIncluded_ofKey {actual : QualifiedKind} {keys : List QualifiedKind} :
    isIncluded actual (keys.map Rule.ofKey) false = true ↔
      (∃ key ∈ keys, key ∈ Rule.inclusionKeys actual ∧ ¬ IsMinused key.kind) ∧
      ∀ key ∈ keys, key ∉ Rule.exclusionKeys actual := by
  simp only [isIncluded_iff, Bool.false_eq_true, false_or, List.forall_mem_map, ← Rule.includes_iff,
    ← Rule.excludes_iff]
  constructor
  · rintro ⟨⟨rule, member, applies, positive⟩, unhidden⟩
    obtain ⟨key, known, rfl⟩ := List.mem_map.1 member
    refine ⟨⟨key, known, positive, applies⟩, ?_⟩
    rintro other present ⟨negative, hides⟩
    rw [unhidden other present hides] at negative
    cases negative
  · rintro ⟨⟨key, known, positive, applies⟩, unhidden⟩
    refine ⟨⟨Rule.ofKey key, List.mem_map_of_mem known, applies, positive⟩, ?_⟩
    intro other present hides
    cases negative : (Rule.ofKey other).negated with
    | false => rfl
    | true => exact absurd ⟨negative, hides⟩ (unhidden other present)

/-! ## Legacy mode -/

theorem any_isWideExclusion {keys : List QualifiedKind} {actual : QualifiedKind} :
    keys.any (isWideExclusion actual) = true ↔
      ⟨"*", "-" ++ actual.kind⟩ ∈ keys ∨ ⟨actual.group, "-*"⟩ ∈ keys := by
  simp only [List.any_eq_true, isWideExclusion, Bool.or_eq_true, Bool.and_eq_true, decide_eq_true_eq]
  constructor
  · rintro ⟨⟨group, kind⟩, member, ⟨rfl, rfl⟩ | ⟨rfl, rfl⟩⟩
    · exact Or.inl member
    · exact Or.inr member
  · rintro (member | member)
    · exact ⟨_, member, Or.inl ⟨rfl, rfl⟩⟩
    · exact ⟨_, member, Or.inr ⟨rfl, rfl⟩⟩

theorem any_isWideInclusion {keys : List QualifiedKind} {actual : QualifiedKind} :
    keys.any (isWideInclusion actual) = true ↔
      ⟨"*", "*"⟩ ∈ keys ∨ ⟨"*", actual.kind⟩ ∈ keys ∨ ⟨actual.group, "*"⟩ ∈ keys := by
  simp only [List.any_eq_true, isWideInclusion, Bool.or_eq_true, Bool.and_eq_true, decide_eq_true_eq]
  constructor
  · rintro ⟨⟨group, kind⟩, member, (⟨rfl, rfl⟩ | ⟨rfl, rfl⟩) | ⟨rfl, rfl⟩⟩
    · exact Or.inl member
    · exact Or.inr (Or.inl member)
    · exact Or.inr (Or.inr member)
  · rintro (member | member | member)
    · exact ⟨_, member, Or.inl (Or.inl ⟨rfl, rfl⟩)⟩
    · exact ⟨_, member, Or.inl (Or.inr ⟨rfl, rfl⟩)⟩
    · exact ⟨_, member, Or.inr ⟨rfl, rfl⟩⟩

/-- Legacy mode from the keys: the passes add up, and the kind's own exclusion silences them. -/
theorem legacyCopies_eq (keys : List QualifiedKind) (actual : QualifiedKind) :
    legacyCopies keys actual =
      if ⟨actual.group, "-" ++ actual.kind⟩ ∈ keys then 0
      else (if actual ∈ keys then 1 else 0) +
        if (⟨"*", "-" ++ actual.kind⟩ ∉ keys ∧ ⟨actual.group, "-*"⟩ ∉ keys) ∧
          (⟨"*", "*"⟩ ∈ keys ∨ ⟨"*", actual.kind⟩ ∈ keys ∨ ⟨actual.group, "*"⟩ ∈ keys)
        then 1 else 0 := by
  simp only [legacyCopies, List.contains_iff_mem, any_isWideExclusion, any_isWideInclusion, ← not_or]
  by_cases own : ⟨actual.group, "-" ++ actual.kind⟩ ∈ keys
  · simp only [if_pos own]
  · simp only [if_neg own]
    by_cases wide : ⟨"*", "-" ++ actual.kind⟩ ∈ keys ∨ ⟨actual.group, "-*"⟩ ∈ keys
    · simp [wide]
    · simp only [wide, if_false, not_false_eq_true, true_and]
      split_ifs <;> rfl

theorem legacyCopies_pos {keys : List QualifiedKind} {actual : QualifiedKind} :
    0 < legacyCopies keys actual ↔
      ⟨actual.group, "-" ++ actual.kind⟩ ∉ keys ∧
      (actual ∈ keys ∨
        (⟨"*", "-" ++ actual.kind⟩ ∉ keys ∧ ⟨actual.group, "-*"⟩ ∉ keys) ∧
          (⟨"*", "*"⟩ ∈ keys ∨ ⟨"*", actual.kind⟩ ∈ keys ∨ ⟨actual.group, "*"⟩ ∈ keys)) := by
  rw [legacyCopies_eq]
  split_ifs with silenced own wide wide <;> simp_all

/-! ## One mode against the other -/

/-- The keys are such that legacy mode lets the kind through and exclusion-first mode hides it: its
    own inclusion stands against a wide exclusion, or a wide inclusion against the exclusion of
    everything, which legacy mode does not know. -/
def LegacyOnly (keys : List QualifiedKind) (actual : QualifiedKind) : Prop :=
  ⟨actual.group, "-" ++ actual.kind⟩ ∉ keys ∧
  ((actual ∈ keys ∧
      (⟨"*", "-" ++ actual.kind⟩ ∈ keys ∨ ⟨actual.group, "-*"⟩ ∈ keys ∨ ⟨"*", "-*"⟩ ∈ keys)) ∨
    (⟨"*", "-*"⟩ ∈ keys ∧ ⟨"*", "-" ++ actual.kind⟩ ∉ keys ∧ ⟨actual.group, "-*"⟩ ∉ keys ∧
      (⟨"*", "*"⟩ ∈ keys ∨ ⟨"*", actual.kind⟩ ∈ keys ∨ ⟨actual.group, "*"⟩ ∈ keys)))

theorem forall_not_exclusionKey {keys : List QualifiedKind} {actual : QualifiedKind} :
    (∀ key ∈ keys, key ∉ Rule.exclusionKeys actual) ↔
      ⟨"*", "-*"⟩ ∉ keys ∧ ⟨"*", "-" ++ actual.kind⟩ ∉ keys ∧ ⟨actual.group, "-*"⟩ ∉ keys ∧
        ⟨actual.group, "-" ++ actual.kind⟩ ∉ keys := by
  have swapped : (∀ key ∈ keys, key ∉ Rule.exclusionKeys actual) ↔
      ∀ key ∈ Rule.exclusionKeys actual, key ∉ keys :=
    ⟨fun apart key member known => apart key known member, fun apart key known member => apart key member known⟩
  rw [swapped]
  simp [Rule.exclusionKeys]

/-- An inclusion applies to the kind; its key is one of those that legacy mode looks for. -/
theorem exists_inclusionKey {keys : List QualifiedKind} {actual : QualifiedKind}
    (found : ∃ key ∈ keys, key ∈ Rule.inclusionKeys actual ∧ ¬ IsMinused key.kind) :
    ⟨"*", "*"⟩ ∈ keys ∨ ⟨"*", actual.kind⟩ ∈ keys ∨ ⟨actual.group, "*"⟩ ∈ keys ∨ actual ∈ keys := by
  obtain ⟨key, known, member, _⟩ := found
  simp only [Rule.inclusionKeys, List.mem_cons, List.not_mem_nil, or_false] at member
  rcases member with rfl | rfl | rfl | rfl <;> simp [known]

/-- For a kind without a minus sign every key that legacy mode looks for is one of an inclusion. -/
theorem exists_inclusionKey_iff {keys : List QualifiedKind} {actual : QualifiedKind}
    (plain : ¬ IsMinused actual.kind) :
    (∃ key ∈ keys, key ∈ Rule.inclusionKeys actual ∧ ¬ IsMinused key.kind) ↔
      ⟨"*", "*"⟩ ∈ keys ∨ ⟨"*", actual.kind⟩ ∈ keys ∨ ⟨actual.group, "*"⟩ ∈ keys ∨ actual ∈ keys := by
  have star : ¬ IsMinused "*" := by decide
  refine ⟨exists_inclusionKey, ?_⟩
  rintro (known | known | known | known)
  · exact ⟨_, known, by simp [Rule.inclusionKeys], star⟩
  · exact ⟨_, known, by simp [Rule.inclusionKeys], plain⟩
  · exact ⟨_, known, by simp [Rule.inclusionKeys], star⟩
  · exact ⟨_, known, by simp [Rule.inclusionKeys], plain⟩

theorem legacyCopies_pos_of_isIncluded {keys : List QualifiedKind} {actual : QualifiedKind}
    (included : isIncluded actual (keys.map Rule.ofKey) false = true) : 0 < legacyCopies keys actual := by
  obtain ⟨found, unhidden⟩ := isIncluded_ofKey.1 included
  obtain ⟨_, everywhere, inGroup, own⟩ := forall_not_exclusionKey.1 unhidden
  refine legacyCopies_pos.2 ⟨own, ?_⟩
  rcases exists_inclusionKey found with known | known | known | known
  · exact Or.inr ⟨⟨everywhere, inGroup⟩, Or.inl known⟩
  · exact Or.inr ⟨⟨everywhere, inGroup⟩, Or.inr (Or.inl known)⟩
  · exact Or.inr ⟨⟨everywhere, inGroup⟩, Or.inr (Or.inr known)⟩
  · exact Or.inl known

/-- The kinds that legacy mode alone emits, for kinds without a minus sign. -/
theorem legacyOnly_iff {keys : List QualifiedKind} {actual : QualifiedKind}
    (plain : ¬ IsMinused actual.kind) :
    (0 < legacyCopies keys actual ∧ isIncluded actual (keys.map Rule.ofKey) false = false) ↔
      LegacyOnly keys actual := by
  rw [← Bool.not_eq_true, isIncluded_ofKey, exists_inclusionKey_iff plain, forall_not_exclusionKey,
    legacyCopies_pos, LegacyOnly]
  tauto

theorem copies_exclusionFirst_le_legacy {rules : List Rule}
    (writable : ∀ rule ∈ rules, rule.isWritable = true) (actual : QualifiedKind) :
    (KindFilter.mk .exclusionFirst rules).copies actual ≤ (KindFilter.mk .legacy rules).copies actual := by
  simp only [copies, keys]
  cases included : isIncluded actual rules false with
  | false => exact Nat.zero_le _
  | true =>
    rw [← Rule.map_ofKey_map_key writable] at included
    exact legacyCopies_pos_of_isIncluded included

theorem copies_legacyOnly_iff {rules : List Rule} (writable : ∀ rule ∈ rules, rule.isWritable = true)
    {actual : QualifiedKind} (plain : ¬ IsMinused actual.kind) :
    (0 < (KindFilter.mk .legacy rules).copies actual ∧
        ¬ 0 < (KindFilter.mk .exclusionFirst rules).copies actual) ↔
      LegacyOnly (rules.map Rule.key) actual := by
  rw [← legacyOnly_iff plain, Rule.map_ofKey_map_key writable]
  simp only [copies, keys]
  cases isIncluded actual rules false <;> simp

/-- For rules that can be written, those of every table among them, exclusion-first mode emits some
    of what legacy mode emits, in order. On kinds without a minus sign the two differ exactly where
    the keys are those of `LegacyOnly`. -/
theorem modes_compared (rules : List Rule) (writable : ∀ rule ∈ rules, rule.isWritable = true)
    (events : List Event) (level : Level) :
    let legacy := ((KindFilter.mk .legacy rules).run events level).1
    let exclusionFirst := ((KindFilter.mk .exclusionFirst rules).run events level).1
    exclusionFirst.Sublist legacy ∧
    (∀ event ∈ events, ¬ IsMinused event.subject.qualifiedKind.kind →
      ((event ∈ legacy ∧ event ∉ exclusionFirst) ↔
        LegacyOnly (rules.map Rule.key) event.subject.qualifiedKind) ∧
      (¬ LegacyOnly (rules.map Rule.key) event.subject.qualifiedKind →
        (event ∈ legacy ↔ event ∈ exclusionFirst))) ∧
    ∀ table : RuleTable, ∀ rule ∈ table.rules, rule.isWritable = true := by
  intro legacy exclusionFirst
  have legacyResult : legacy = spread (KindFilter.mk .legacy rules).copiesOf events := run_result _ _ _
  have exclusionResult : exclusionFirst = spread (KindFilter.mk .exclusionFirst rules).copiesOf events :=
    run_result _ _ _
  have fewer : ∀ event,
      (KindFilter.mk .exclusionFirst rules).copiesOf event ≤ (KindFilter.mk .legacy rules).copiesOf event :=
    fun event => copies_exclusionFirst_le_legacy writable event.subject.qualifiedKind
  have included : exclusionFirst.Sublist legacy := by
    rw [legacyResult, exclusionResult]
    exact spread_sublist fewer events
  refine ⟨included, ?_, fun table rule => RuleTable.isWritable_rules⟩
  intro event given plain
  have difference : (event ∈ legacy ∧ event ∉ exclusionFirst) ↔
      LegacyOnly (rules.map Rule.key) event.subject.qualifiedKind := by
    rw [← copies_legacyOnly_iff writable plain, legacyResult, exclusionResult]
    simp only [mem_spread, given, true_and, copiesOf]
  refine ⟨difference, ?_⟩
  intro same
  constructor
  · intro kept
    by_contra hidden
    exact same (difference.1 ⟨kept, hidden⟩)
  · exact fun kept => included.subset kept

/-- Deployments are included by their own key and excluded with everything else. -/
theorem modes_compared_deployment :
    let rules := [Rule.ofKey ⟨"apps", "Deployment"⟩, Rule.ofKey ⟨"*", "-*"⟩]
    let event : Event := { place := 0, subject := { kind := "Deployment", apiVersion := "apps/v1" } }
    (∀ rule ∈ rules, rule.isWritable = true) ∧
    ¬ IsMinused event.subject.qualifiedKind.kind ∧
    LegacyOnly (rules.map Rule.key) event.subject.qualifiedKind ∧
    event ∈ ((KindFilter.mk .legacy rules).run [event] .info).1 ∧
    event ∉ ((KindFilter.mk .exclusionFirst rules).run [event] .info).1 := by
  intro rules event
  have writable : ∀ rule ∈ rules, rule.isWritable = true := by
    intro rule member
    simp only [rules, List.mem_cons, List.not_mem_nil, or_false] at member
    rcases member with rfl | rfl <;> exact Rule.isWritable_ofKey _
  have plain : ¬ IsMinused event.subject.qualifiedKind.kind := by decide
  have differ : LegacyOnly (rules.map Rule.key) event.subject.qualifiedKind := by
    have resolved : event.subject.qualifiedKind = ⟨"apps", "Deployment"⟩ := by decide +kernel
    rw [resolved]
    simp [LegacyOnly, rules]
  have compared := (modes_compared rules writable [event] .info).2.1 event (List.mem_singleton_self _) plain
  exact ⟨writable, plain, differ, compared.1.2 differ⟩

end EventSieve.KindFilter
