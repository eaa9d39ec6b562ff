import EventSieve.RuleTable
import Mathlib.Tactic.Tauto

/-!
How keys stand for rules. A key writes the rule that it stands for, so every
rule of a table can be written. Which kinds a rule applies to is told from its
key: an exclusion of a kind has one of four keys, with a star for the group, for
the kind, for both or for neither, and so has an inclusion.
-/

namespace EventSieve

def IsMinused (text : String) : Prop := text.toList.head? = some '-'

instance (text : String) : Decidable (IsMinused text) := inferInstanceAs (Decidable (_ = _))

theorem toList_minus (rest : String) : ("-" ++ rest).toList = '-' :: rest.toList := by
  simp

theorem isMinused_iff {text : String} : IsMinused text ↔ ∃ rest, text = "-" ++ rest := by
  constructor
  · intro minused
    obtain ⟨rest, split⟩ : ∃ rest, text.toList = '-' :: rest := by
      unfold IsMinused at minused
      cases letters : text.toList with
      | nil => simp [letters] at minused
      | cons first rest =>
        rw [letters, List.head?_cons, Option.some.injEq] at minused
        exact ⟨rest, by rw [minused]⟩
    refine ⟨String.ofList rest, ?_⟩
    rw [← String.toList_inj, split, toList_minus, String.toList_ofList]
  · rintro ⟨rest, rfl⟩
    rw [IsMinused, toList_minus, List.head?_cons]

theorem isMinused_append (rest : String) : IsMinused ("-" ++ rest) := isMinused_iff.2 ⟨rest, rfl⟩

/-- What follows a minus sign is told from the whole text. -/
theorem minus_append_inj {first second : String} : "-" ++ first = "-" ++ second ↔ first = second := by
  simp [← String.toList_inj]

namespace NamePattern

@[simp] theorem text_ofText (text : String) : (ofText text).text = text := by
  unfold ofText
  by_cases star : text = "*"
  · rw [if_pos star, star]
    rfl
  · rw [if_neg star]
    rfl

theorem admits_ofText {text name : String} :
    (ofText text).admits name = true ↔ text = "*" ∨ text = name := by
  unfold ofText
  by_cases star : text = "*"
  · simp [star, admits]
  · simp [star, admits]

end NamePattern

namespace Rule

theorem ofKey_minused (group rest : String) :
    ofKey ⟨group, "-" ++ rest⟩ = ⟨.ofText group, .ofText rest, true⟩ := by
  simp only [ofKey, toList_minus, String.ofList_toList]

theorem ofKey_plain {kind : String} (plain : ¬ IsMinused kind) (group : String) :
    ofKey ⟨group, kind⟩ = ⟨.ofText group, .ofText kind, false⟩ := by
  unfold ofKey
  split
  · rename_i rest letters
    refine absurd ?_ plain
    rw [IsMinused, show kind.toList = '-' :: rest from letters]
    rfl
  · rfl

@[simp] theorem key_ofKey (key : QualifiedKind) : (ofKey key).key = key := by
  obtain ⟨group, kind⟩ := key
  by_cases minused : IsMinused kind
  · obtain ⟨rest, rfl⟩ := isMinused_iff.1 minused
    simp [ofKey_minused, Rule.key]
  · simp [ofKey_plain minused, Rule.key]

theorem isWritable_ofKey (key : QualifiedKind) : (ofKey key).isWritable = true := by
  simp [isWritable]

theorem isWritable_iff {rule : Rule} : rule.isWritable = true ↔ ofKey rule.key = rule :=
  decide_eq_true_iff

/-- Rules that can be written are those that their keys stand for. -/
theorem map_ofKey_map_key {rules : List Rule} (writable : ∀ rule ∈ rules, rule.isWritable = true) :
    (rules.map key).map ofKey = rules := by
  have same : ∀ rule ∈ rules, (ofKey ∘ key) rule = rule :=
    fun rule member => isWritable_iff.1 (writable rule member)
  rw [List.map_map, List.map_congr_left same, List.map_id']

/-! ## The keys of the rules on a kind -/

/-- The keys of the exclusions that apply to a kind. -/
def exclusionKeys (actual : QualifiedKind) : List QualifiedKind :=
  [⟨"*", "-*"⟩, ⟨"*", "-" ++ actual.kind⟩, ⟨actual.group, "-*"⟩, ⟨actual.group, "-" ++ actual.kind⟩]

/-- The keys of the inclusions that apply to a kind. -/
def inclusionKeys (actual : QualifiedKind) : List QualifiedKind :=
  [⟨"*", "*"⟩, ⟨"*", actual.kind⟩, ⟨actual.group, "*"⟩, actual]

theorem isMinused_of_mem_exclusionKeys {actual key : QualifiedKind}
    (member : key ∈ exclusionKeys actual) : IsMinused key.kind := by
  have star : IsMinused "-*" := by decide
  have named := isMinused_append actual.kind
  simp only [exclusionKeys, List.mem_cons, List.not_mem_nil, or_false] at member
  rcases member with rfl | rfl | rfl | rfl <;> assumption

theorem negated_ofKey {key : QualifiedKind} : (ofKey key).negated = true ↔ IsMinused key.kind := by
  obtain ⟨group, kind⟩ := key
  by_cases minused : IsMinused kind
  · obtain ⟨rest, rfl⟩ := isMinused_iff.1 minused
    simp [ofKey_minused, minused]
  · simp [ofKey_plain minused, minused]

theorem excludes_iff {key actual : QualifiedKind} :
    ((ofKey key).negated = true ∧ (ofKey key).admits actual = true) ↔ key ∈ exclusionKeys actual := by
  obtain ⟨group, kind⟩ := key
  have star : "-*" = "-" ++ "*" := by decide
  by_cases minused : IsMinused kind
  · obtain ⟨rest, rfl⟩ := isMinused_iff.1 minused
    simp only [ofKey_minused, admits, Bool.and_eq_true, NamePattern.admits_ofText, true_and, exclusionKeys,
      star, List.mem_cons, QualifiedKind.mk.injEq, minus_append_inj, List.not_mem_nil, or_false]
    tauto
  · have other : ∀ rest, kind ≠ "-" ++ rest := fun rest same => minused (same ▸ isMinused_append rest)
    have wild : kind ≠ "-*" := star ▸ other "*"
    simp [ofKey_plain minused, exclusionKeys, wild, other]

theorem includes_iff {key actual : QualifiedKind} :
    ((ofKey key).negated = false ∧ (ofKey key).admits actual = true) ↔
      key ∈ inclusionKeys actual ∧ ¬ IsMinused key.kind := by
  obtain ⟨group, kind⟩ := key
  obtain ⟨actualGroup, actualKind⟩ := actual
  by_cases minused : IsMinused kind
  · have negated : (ofKey ⟨group, kind⟩).negated = true := negated_ofKey.2 minused
    simp [negated, minused]
  · simp only [ofKey_plain minused, admits, Bool.and_eq_true, NamePattern.admits_ofText, true_and,
      inclusionKeys, List.mem_cons, QualifiedKind.mk.injEq, List.not_mem_nil, or_false, minused,
      not_false_eq_true, and_true]
    tauto

end Rule

/-- The rules of a table write its keys. -/
theorem RuleTable.map_key_rules (table : RuleTable) : table.rules.map Rule.key = table.keys := by
  have written : Rule.key ∘ Rule.ofKey = id := funext Rule.key_ofKey
  rw [rules, List.map_map, written, List.map_id]

theorem RuleTable.isWritable_rules {table : RuleTable} {rule : Rule} (member : rule ∈ table.rules) :
    rule.isWritable = true := by
  obtain ⟨key, _, rfl⟩ := List.mem_map.1 member
  exact Rule.isWritable_ofKey key

end EventSieve
