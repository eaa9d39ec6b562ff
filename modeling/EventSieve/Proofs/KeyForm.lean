import EventSieve.Proofs.LegacyKeys

/-!
Which rules have a key form. Every key is written by the rule that it stands
for, so the rules that can be written are those of keys. A text widens the
pattern that it writes in one case, that of a spelled star, and a rule's key
takes an inclusion for an exclusion where its kind starts with a minus sign.
Such a rule can be told from the one that its key stands for by what it does;
legacy mode goes by the latter, and warns of it.
-/

namespace EventSieve

namespace NamePattern

/-- A spelled star is the one pattern that is not read back from its text. -/
theorem ofText_text_iff {pattern : NamePattern} : ofText pattern.text = pattern ↔ pattern ≠ .exactly "*" := by
  cases pattern with
  | any => simp [ofText, text]
  | exactly value =>
    by_cases star : value = "*"
    · simp [ofText, text, star]
    · simp [ofText, text, star]

theorem admits_value (pattern : NamePattern) : pattern.admits pattern.value = true := by
  cases pattern <;> simp [admits, value]

/-- What a text stands for applies to all that the pattern applies to. -/
theorem admits_ofText_text {pattern : NamePattern} {name : String} (applies : pattern.admits name = true) :
    (ofText pattern.text).admits name = true := by
  rw [admits_ofText]
  cases pattern with
  | any => exact Or.inl rfl
  | exactly value => exact Or.inr (of_decide_eq_true applies)

end NamePattern

namespace Rule

theorem ofKey_injective : Function.Injective ofKey := Function.LeftInverse.injective key_ofKey

/-- The rules that can be written are those that keys stand for. -/
theorem isWritable_iff_exists {rule : Rule} : rule.isWritable = true ↔ ∃ key, ofKey key = rule := by
  constructor
  · intro writable
    exact ⟨rule.key, isWritable_iff.1 writable⟩
  · rintro ⟨key, rfl⟩
    exact isWritable_ofKey key

/-! ## What a key makes of a rule -/

/-- An inclusion of one kind whose name starts with a minus sign. -/
def IncludesMinused (rule : Rule) : Prop :=
  rule.negated = false ∧ ∃ value, rule.kind = .exactly value ∧ IsMinused value

/-- The key of such a rule is that of an exclusion. -/
theorem IncludesMinused.negated_ofKey {rule : Rule} (includes : rule.IncludesMinused) :
    (ofKey rule.key).negated = true := by
  obtain ⟨positive, value, spelled, minused⟩ := includes
  simpa [Rule.negated_ofKey, key, positive, spelled, NamePattern.text] using minused

/-- Otherwise the key keeps what the rule does and reads both patterns from their texts. -/
theorem ofKey_key {rule : Rule} (other : ¬ rule.IncludesMinused) :
    ofKey rule.key = ⟨.ofText rule.group.text, .ofText rule.kind.text, rule.negated⟩ := by
  obtain ⟨group, kind, negated⟩ := rule
  cases negated with
  | true => exact ofKey_minused group.text kind.text
  | false =>
    have plain : ¬ IsMinused kind.text := by
      intro minused
      cases kind with
      | any => revert minused; decide
      | exactly value => exact other ⟨rfl, value, rfl, minused⟩
    simpa [key] using ofKey_plain plain group.text

/-- The rules without a key form. -/
theorem isWritable_eq_false_iff {rule : Rule} :
    rule.isWritable = false ↔
      rule.group = .exactly "*" ∨ rule.kind = .exactly "*" ∨ rule.IncludesMinused := by
  rw [← Bool.not_eq_true, isWritable_iff]
  by_cases includes : rule.IncludesMinused
  · have unlike : ofKey rule.key ≠ rule := by
      intro same
      have negative := includes.negated_ofKey
      rw [same, includes.1] at negative
      cases negative
    simp [includes, unlike]
  · rw [ofKey_key includes]
    have parts : (⟨.ofText rule.group.text, .ofText rule.kind.text, rule.negated⟩ : Rule) = rule ↔
        rule.group ≠ .exactly "*" ∧ rule.kind ≠ .exactly "*" := by
      rw [← NamePattern.ofText_text_iff, ← NamePattern.ofText_text_iff]
      obtain ⟨group, kind, negated⟩ := rule
      simp
    rw [parts]
    tauto

/-! ## Rules told apart -/

/-- One rule includes and the other excludes, or exactly one of them applies to some kind. -/
def Distinguishable (rule other : Rule) : Prop :=
  rule.negated ≠ other.negated ∨ ∃ actual, rule.admits actual ≠ other.admits actual

/-- A spelled star applies to one name where the pattern of its text applies to others too. -/
theorem distinguishable_of_star {rule : Rule} (other : ¬ rule.IncludesMinused)
    (star : rule.group = .exactly "*" ∨ rule.kind = .exactly "*") :
    rule.Distinguishable (ofKey rule.key) := by
  have admitted (actual : QualifiedKind) : (ofKey rule.key).admits actual =
      ((NamePattern.ofText rule.group.text).admits actual.group &&
        (NamePattern.ofText rule.kind.text).admits actual.kind) := by
    rw [ofKey_key other, admits]
  -- Both do the same here, so a kind is needed that only the wider one applies to: its name is empty in
  -- the place of the star, and in the other place one that the rule's own pattern applies to.
  refine Or.inr ?_
  rcases star with star | star
  · have wider := NamePattern.admits_ofText_text rule.kind.admits_value
    refine ⟨⟨"", rule.kind.value⟩, ?_⟩
    rw [admitted, wider]
    simp [admits, star, NamePattern.admits, NamePattern.text, NamePattern.ofText]
  · have wider := NamePattern.admits_ofText_text rule.group.admits_value
    refine ⟨⟨rule.group.value, ""⟩, ?_⟩
    rw [admitted, wider]
    simp [admits, star, NamePattern.admits, NamePattern.text, NamePattern.ofText]

theorem isWritable_eq_false_iff_distinguishable {rule : Rule} :
    rule.isWritable = false ↔ rule.Distinguishable (ofKey rule.key) := by
  constructor
  · intro unwritable
    by_cases includes : rule.IncludesMinused
    · refine Or.inl ?_
      rw [includes.negated_ofKey, includes.1]
      exact Bool.false_ne_true
    · have star := isWritable_eq_false_iff.1 unwritable
      exact distinguishable_of_star includes (by tauto)
  · intro apart
    rw [← Bool.not_eq_true, isWritable_iff]
    intro same
    rw [same] at apart
    rcases apart with other | ⟨actual, other⟩
    · exact other rfl
    · exact other rfl

end Rule

/-! ## Legacy mode -/

namespace KindFilter

/-- In legacy mode a filter does what it would do with the rules that its keys stand for. -/
theorem run_legacy_ofKey (rules : List Rule) (events : List Event) (level : Level) :
    (Leaf.run (.kind ⟨.legacy, rules⟩) events level).1 =
      (Leaf.run (.kind ⟨.legacy, rules.map fun rule => Rule.ofKey rule.key⟩) events level).1 := by
  have written : (KindFilter.mk .legacy (rules.map fun rule => Rule.ofKey rule.key)).keys =
      (KindFilter.mk .legacy rules).keys := by
    simp [keys]
  rw [run_legacy rfl, run_legacy rfl, written]

theorem announceRules_notes (rules : List Rule) :
    (announceRules rules .warn).2.notes =
      (rules.filter fun rule => !rule.isWritable).map fun rule => ⟨0, .keyFormMissing rule⟩ := by
  induction rules with
  | nil => rfl
  | cons rule rest ih =>
    have recorded : Level.warn ≤ (Message.keyFormMissing rule).level := Nat.le_refl _
    cases written : rule.isWritable with
    | true => simp [announceRules, written, ih]
    | false => simp [announceRules, written, ih, Logged.note_apply, recorded]

/-- At the level of warnings a new filter in legacy mode notes the rules without a key form, in order. -/
theorem announce_legacy_notes (rules : List Rule) :
    (announce ⟨.legacy, rules⟩ .warn).2.notes =
      (rules.filter fun rule => !rule.isWritable).map fun rule => ⟨0, .keyFormMissing rule⟩ := by
  have unrecorded : ¬ Level.warn ≤ (Message.kindFilterMade ⟨.legacy, rules⟩).level := by
    show ¬ Level.warn ≤ Level.debug
    decide
  simp [announce, announceRules_notes, Logged.note_apply, unrecorded]

/-- Keys and the rules with a key form correspond one to one. The rules without one are those that
    spell a star and those that include a kind with a minus sign, and these are the rules that can be
    told, by what they do, from the rule that their key stands for. That rule is the one that counts
    in legacy mode, where a new filter warns of each rule for which it is another one. -/
theorem key_forms :
    (∀ key : QualifiedKind, (Rule.ofKey key).key = key ∧ (Rule.ofKey key).isWritable = true) ∧
    Function.Injective Rule.ofKey ∧
    (∀ rule : Rule, rule.isWritable = true ↔ ∃ key, Rule.ofKey key = rule) ∧
    (∀ rule : Rule, rule.isWritable = false ↔
      rule.group = .exactly "*" ∨ rule.kind = .exactly "*" ∨
        (rule.negated = false ∧ ∃ value, rule.kind = .exactly value ∧ IsMinused value)) ∧
    (∀ rule : Rule, rule.isWritable = false ↔
      rule.negated ≠ (Rule.ofKey rule.key).negated ∨
        ∃ actual, rule.admits actual ≠ (Rule.ofKey rule.key).admits actual) ∧
    ∀ rules : List Rule,
      (∀ events level, (Leaf.run (.kind ⟨.legacy, rules⟩) events level).1 =
        (Leaf.run (.kind ⟨.legacy, rules.map fun rule => Rule.ofKey rule.key⟩) events level).1) ∧
      (announce ⟨.legacy, rules⟩ .warn).2.notes =
        (rules.filter fun rule => !rule.isWritable).map fun rule => ⟨0, .keyFormMissing rule⟩ := by
  refine ⟨?_, Rule.ofKey_injective, fun rule => Rule.isWritable_iff_exists, ?_, ?_, ?_⟩
  · intro key
    exact ⟨Rule.key_ofKey key, Rule.isWritable_ofKey key⟩
  · intro rule
    exact Rule.isWritable_eq_false_iff
  · intro rule
    exact Rule.isWritable_eq_false_iff_distinguishable
  · intro rules
    exact ⟨run_legacy_ofKey rules, announce_legacy_notes rules⟩

end KindFilter

end EventSieve
