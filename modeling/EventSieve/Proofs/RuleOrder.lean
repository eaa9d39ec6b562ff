import EventSieve.Proofs.ByteOrder
import EventSieve.Proofs.LegacyKeys
import Mathlib.Data.List.Sort

/-!
The rules of a table. Keys are ordered strictly and totally, and a table that is
filled from nothing is in that order whatever is put into it, so its keys are
told from the set of those that were put in. Each rule writes its key again, and
the rules are told from that set as well.
-/

namespace EventSieve

instance : IsStrictTotalOrder QualifiedKind (· < ·) where
  irrefl := QualifiedKind.lt_irrefl
  trans _ _ _ := QualifiedKind.lt_trans
  trichotomous _ _ notLess notMore := by
    by_contra other
    exact notMore (QualifiedKind.lt_of_not_lt notLess other)

/-- Keys of which neither comes first are the same. -/
theorem QualifiedKind.incomparable_iff {first second : QualifiedKind} :
    (¬ first < second ∧ ¬ second < first) ↔ first = second := by
  constructor
  · rintro ⟨notLess, notMore⟩
    by_contra other
    exact notMore (lt_of_not_lt notLess other)
  · rintro rfl
    exact ⟨lt_irrefl first, lt_irrefl first⟩

namespace RuleTable

/-- Whatever is put into a table in order, it stays in order. -/
theorem Ordered.foldl_insert {table : RuleTable} (ordered : table.Ordered) (pairs : List (QualifiedKind × Bool)) :
    (pairs.foldl (fun table pair => table.insert pair.1 pair.2) table).Ordered := by
  induction pairs generalizing table with
  | nil => exact ordered
  | cons pair rest ih => exact ih (ordered.insert pair.1 pair.2)

theorem ordered_ofList (pairs : List (QualifiedKind × Bool)) : (ofList pairs).Ordered :=
  ordered_empty.foldl_insert pairs

theorem Ordered.pairwise_keys {table : RuleTable} (ordered : table.Ordered) : table.keys.Pairwise (· < ·) :=
  List.pairwise_map.2 ordered

theorem Ordered.keys_eq {table other : RuleTable} (ordered : table.Ordered) (also : other.Ordered)
    (same : ∀ key, key ∈ table.keys ↔ key ∈ other.keys) : table.keys = other.keys :=
  ordered.pairwise_keys.eq_of_mem_iff also.pairwise_keys same

/-- The rules of a table are in the order of their keys, which is that of bytes, strict and total. Their
    keys are those that were put into the table, each once, and no two rules are the same. Whichever way
    a table was filled with the same keys, it has the same rules. -/
theorem rules_ofList :
    (∀ first second : QualifiedKind, first < second ↔
      Text.bytes first.group < Text.bytes second.group ∨
        (first.group = second.group ∧ Text.bytes first.kind < Text.bytes second.kind)) ∧
    IsStrictTotalOrder QualifiedKind (· < ·) ∧
    (∀ first second : QualifiedKind, (¬ first < second ∧ ¬ second < first) ↔ first = second) ∧
    ∀ pairs : List (QualifiedKind × Bool),
      let rules := (ofList pairs).rules
      (rules.map Rule.key).Pairwise (· < ·) ∧
      (∀ key, key ∈ rules.map Rule.key ↔ key ∈ pairs.map Prod.fst) ∧
      rules.Nodup ∧
      ∀ others : List (QualifiedKind × Bool),
        (∀ key, key ∈ pairs.map Prod.fst ↔ key ∈ others.map Prod.fst) → rules = (ofList others).rules := by
  refine ⟨fun first second => QualifiedKind.lt_iff_bytes_lt, inferInstance,
    fun first second => QualifiedKind.incomparable_iff, fun pairs => ?_⟩
  intro rules
  have written : rules.map Rule.key = (ofList pairs).keys := map_key_rules _
  have increasing : (rules.map Rule.key).Pairwise (· < ·) := by
    rw [written]
    exact (ordered_ofList pairs).pairwise_keys
  refine ⟨increasing, ?_, ?_, ?_⟩
  · intro key
    rw [written, mem_keys_ofList]
  · exact List.Nodup.of_map Rule.key (increasing.imp QualifiedKind.ne_of_lt)
  · intro others same
    have keys : (ofList pairs).keys = (ofList others).keys := by
      refine (ordered_ofList pairs).keys_eq (ordered_ofList others) fun key => ?_
      rw [mem_keys_ofList, mem_keys_ofList, same]
    exact congrArg (List.map Rule.ofKey) keys

/-- The same three keys in another order, one of them twice and with other flags. -/
theorem rules_ofList_refilled :
    let pairs : List (QualifiedKind × Bool) :=
      [(⟨"apps", "Deployment"⟩, true), (⟨"", "-Pod"⟩, true), (⟨"*", "*"⟩, false)]
    let others : List (QualifiedKind × Bool) :=
      [(⟨"*", "*"⟩, true), (⟨"", "-Pod"⟩, false), (⟨"apps", "Deployment"⟩, false), (⟨"", "-Pod"⟩, true)]
    (∀ key, key ∈ pairs.map Prod.fst ↔ key ∈ others.map Prod.fst) ∧
    (ofList pairs).rules = (ofList others).rules ∧
    (ofList others).rules.map Rule.key = [⟨"", "-Pod"⟩, ⟨"*", "*"⟩, ⟨"apps", "Deployment"⟩] := by
  intro pairs others
  have same : ∀ key, key ∈ pairs.map Prod.fst ↔ key ∈ others.map Prod.fst := by
    intro key
    simp only [pairs, others, List.map_cons, List.map_nil, List.mem_cons, List.not_mem_nil, or_false]
    tauto
  obtain ⟨_, _, _, filled⟩ := rules_ofList
  exact ⟨same, (filled pairs).2.2.2 others same, by decide +kernel⟩

end RuleTable

end EventSieve
