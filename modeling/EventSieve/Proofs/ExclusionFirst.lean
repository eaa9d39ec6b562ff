import EventSieve.Proofs.LegacyKeys

/-!
Exclusion-first mode by its rule. A filter asks its rules one after the other,
stops at the first exclusion that applies and remembers whether an inclusion
did. What comes of that is told without the order (`KindFilter.Shows`), so only
the set of the rules counts: neither their order nor their repetition, and for a
table neither its flags nor how it was filled.
-/

namespace EventSieve

/-- The pattern stands for every name, or spells this one; a star that it spells is a name like others. -/
def NamePattern.Matches (pattern : NamePattern) (name : String) : Prop :=
  pattern = .any ∨ pattern = .exactly name

instance (pattern : NamePattern) (name : String) : Decidable (pattern.Matches name) :=
  inferInstanceAs (Decidable (_ ∨ _))

theorem NamePattern.admits_iff {pattern : NamePattern} {name : String} :
    pattern.admits name = true ↔ pattern.Matches name := by
  cases pattern <;> simp [admits, Matches]

/-- Both patterns match the kind of an object. -/
def Rule.AppliesTo (rule : Rule) (actual : QualifiedKind) : Prop :=
  rule.group.Matches actual.group ∧ rule.kind.Matches actual.kind

instance (rule : Rule) (actual : QualifiedKind) : Decidable (rule.AppliesTo actual) :=
  inferInstanceAs (Decidable (_ ∧ _))

theorem Rule.admits_iff {rule : Rule} {actual : QualifiedKind} :
    rule.admits actual = true ↔ rule.AppliesTo actual := by
  rw [admits, Bool.and_eq_true, NamePattern.admits_iff, NamePattern.admits_iff, AppliesTo]

namespace KindFilter

/-- Some inclusion among the rules applies to the kind, and no exclusion does. -/
def Shows (rules : List Rule) (actual : QualifiedKind) : Prop :=
  (∃ rule ∈ rules, rule.negated = false ∧ rule.AppliesTo actual) ∧
  ∀ rule ∈ rules, rule.negated = true → ¬ rule.AppliesTo actual

instance (rules : List Rule) (actual : QualifiedKind) : Decidable (Shows rules actual) :=
  inferInstanceAs (Decidable (_ ∧ _))

theorem shows_congr {rules others : List Rule} (same : ∀ rule, rule ∈ rules ↔ rule ∈ others) :
    Shows rules = Shows others := by
  funext actual
  simp only [Shows, same]

/-- One scan over the rules finds what they say together. -/
theorem isIncluded_iff_shows {rules : List Rule} {actual : QualifiedKind} :
    isIncluded actual rules false = true ↔ Shows rules actual := by
  rw [isIncluded_iff, Shows]
  refine and_congr ?_ (forall₂_congr fun rule _ => ?_)
  · simp only [Bool.false_eq_true, false_or, Rule.admits_iff, and_comm]
  · rw [Rule.admits_iff]
    cases rule.negated <;> simp

theorem run_exclusionFirst (rules : List Rule) (events : List Event) (level : Level) :
    (Leaf.run (.kind ⟨.exclusionFirst, rules⟩) events level).1 =
      some (events.filter fun event => Shows rules event.subject.qualifiedKind) := by
  have chosen : (KindFilter.mk .exclusionFirst rules).copiesOf =
      fun event => if Shows rules event.subject.qualifiedKind then 1 else 0 := by
    funext event
    simp only [copiesOf, copies, isIncluded_iff_shows]
  rw [← spread_choice, ← chosen, ← run_result]
  rfl

/-- Exclusion-first mode keeps, in order, each event once for whose kind the rules hold an inclusion
    and no exclusion, and its result is never absent. Rules of any sort will do, those without a key
    among them. Filters with the same set of rules return the same, and so does one for a table and one
    with the rules that its keys stand for, which are the keys that were put into it. -/
theorem exclusionFirst_selects (events : List Event) (level : Level) :
    let emitted (filter : KindFilter) := (Leaf.run (.kind filter) events level).1
    (∀ rules : List Rule, emitted ⟨.exclusionFirst, rules⟩ =
      some (events.filter fun event => Shows rules (event.subject.resolve level).1)) ∧
    (∀ rules others : List Rule, (∀ rule, rule ∈ rules ↔ rule ∈ others) →
      emitted ⟨.exclusionFirst, rules⟩ = emitted ⟨.exclusionFirst, others⟩) ∧
    (∀ (table : RuleTable) (rules : List Rule), (∀ rule, rule ∈ rules ↔ ∃ key ∈ table.keys, Rule.ofKey key = rule) →
      emitted (.ofTable .exclusionFirst table) = emitted ⟨.exclusionFirst, rules⟩) ∧
    ∀ (pairs : List (QualifiedKind × Bool)) (rules : List Rule),
      (∀ rule, rule ∈ rules ↔ ∃ key ∈ pairs.map Prod.fst, Rule.ofKey key = rule) →
      emitted (.ofTable .exclusionFirst (.ofList pairs)) = emitted ⟨.exclusionFirst, rules⟩ := by
  intro emitted
  have selected : ∀ rules : List Rule, emitted ⟨.exclusionFirst, rules⟩ =
      some (events.filter fun event => Shows rules (event.subject.resolve level).1) := by
    intro rules
    simp only [Subject.resolve_result]
    exact run_exclusionFirst rules events level
  have setwise : ∀ rules others : List Rule, (∀ rule, rule ∈ rules ↔ rule ∈ others) →
      emitted ⟨.exclusionFirst, rules⟩ = emitted ⟨.exclusionFirst, others⟩ := by
    intro rules others same
    simp only [selected, shows_congr same]
  have table : ∀ (table : RuleTable) (rules : List Rule),
      (∀ rule, rule ∈ rules ↔ ∃ key ∈ table.keys, Rule.ofKey key = rule) →
      emitted (.ofTable .exclusionFirst table) = emitted ⟨.exclusionFirst, rules⟩ := by
    intro table rules keyed
    exact setwise _ _ fun rule => List.mem_map.trans (keyed rule).symm
  refine ⟨selected, setwise, table, ?_⟩
  intro pairs rules keyed
  apply table
  intro rule
  simp only [keyed, RuleTable.mem_keys_ofList]

/-- Pods of every group are included, and a rule that has no key excludes what lies in a group spelled
    as a star: it hides a pod of that group and no other one, wherever it stands among the rules. The
    rule for pods is the same from a table that was filled twice. -/
theorem exclusionFirst_selects_star :
    let pods := Rule.ofKey ⟨"*", "Pod"⟩
    let starGroup : Rule := ⟨.exactly "*", .any, true⟩
    let core : Event := { place := 0, subject := { kind := "Pod", apiVersion := "v1" } }
    let starred : Event := { place := 1, subject := { kind := "Pod", apiVersion := "*/v1" } }
    let emitted (filter : KindFilter) := (Leaf.run (.kind filter) [core, starred] .info).1
    starGroup.isWritable = false ∧
    emitted ⟨.exclusionFirst, [pods, starGroup]⟩ = some [core] ∧
    emitted ⟨.exclusionFirst, [starGroup, pods, starGroup]⟩ = some [core] ∧
    emitted (.ofTable .exclusionFirst (.ofList [(⟨"*", "Pod"⟩, true), (⟨"*", "Pod"⟩, false)])) =
      some [core, starred] := by
  intro pods starGroup core starred emitted
  obtain ⟨selected, setwise, _, filled⟩ := exclusionFirst_selects [core, starred] .info
  have hidden : emitted ⟨.exclusionFirst, [pods, starGroup]⟩ = some [core] :=
    (selected _).trans (by decide +kernel)
  have same : ∀ rule, rule ∈ [starGroup, pods, starGroup] ↔ rule ∈ [pods, starGroup] := by
    intro rule
    simp only [List.mem_cons, List.not_mem_nil, or_false]
    tauto
  have keyed : ∀ rule, rule ∈ [pods] ↔
      ∃ key ∈ [((⟨"*", "Pod"⟩ : QualifiedKind), true), (⟨"*", "Pod"⟩, false)].map Prod.fst,
        Rule.ofKey key = rule := by
    intro rule
    simp [pods, eq_comm]
  have shown : emitted ⟨.exclusionFirst, [pods]⟩ = some [core, starred] :=
    (selected _).trans (by decide +kernel)
  exact ⟨by decide, hidden, (setwise _ _ same).trans hidden, (filled _ _ keyed).trans shown⟩

end KindFilter

end EventSieve
