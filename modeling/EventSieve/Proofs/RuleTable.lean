import EventSieve.RuleTable
import Mathlib.Data.List.Perm.Basic

/-!
The order of keys, and tables as sets of entries. Keys are ordered totally, so
an insertion keeps a table in order, and of the entries that were there it takes
out the one with its own key. A table in order is told from its entries.
-/

namespace EventSieve

namespace QualifiedKind

theorem lt_irrefl (key : QualifiedKind) : ¬ key < key := by
  rintro (less | ⟨_, less⟩)
  · exact String.lt_irrefl _ less
  · exact String.lt_irrefl _ less

theorem lt_trans {first second third : QualifiedKind} (here : first < second) (there : second < third) :
    first < third := by
  rcases here with less | ⟨sameGroup, less⟩
  · rcases there with more | ⟨sameGroup, _⟩
    · exact Or.inl (String.lt_trans less more)
    · exact Or.inl (sameGroup ▸ less)
  · rcases there with more | ⟨otherGroup, more⟩
    · exact Or.inl (sameGroup ▸ more)
    · exact Or.inr ⟨sameGroup.trans otherGroup, String.lt_trans less more⟩

theorem ne_of_lt {first second : QualifiedKind} (less : first < second) : first ≠ second := by
  rintro rfl
  exact lt_irrefl first less

theorem lt_of_not_lt {first second : QualifiedKind} (notLess : ¬ first < second) (other : first ≠ second) :
    second < first := by
  have equalTexts : ∀ {a b : String}, ¬ a < b → ¬ b < a → a = b := fun up down =>
    String.le_antisymm (String.not_lt.1 down) (String.not_lt.1 up)
  by_cases lessGroup : second.group < first.group
  · exact Or.inl lessGroup
  · have sameGroup : first.group = second.group := equalTexts (fun less => notLess (Or.inl less)) lessGroup
    refine Or.inr ⟨sameGroup.symm, ?_⟩
    by_cases lessKind : second.kind < first.kind
    · exact lessKind
    · have sameKind : first.kind = second.kind :=
        equalTexts (fun less => notLess (Or.inr ⟨sameGroup, less⟩)) lessKind
      obtain ⟨group, kind⟩ := first
      obtain ⟨otherGroup, otherKind⟩ := second
      simp only at sameGroup sameKind
      exact absurd (by rw [sameGroup, sameKind]) other

end QualifiedKind

namespace RuleTable

/-- Keys stand in increasing order, so none stands twice. -/
def Ordered (table : RuleTable) : Prop := table.entries.Pairwise fun first later => first.1 < later.1

theorem ordered_empty : Ordered {} := List.Pairwise.nil

theorem mem_insertEntry {key : QualifiedKind} {flag : Bool} {entries : List (QualifiedKind × Bool)}
    (ordered : entries.Pairwise fun first later => first.1 < later.1) {entry : QualifiedKind × Bool} :
    entry ∈ insertEntry key flag entries ↔ entry = (key, flag) ∨ (entry ∈ entries ∧ entry.1 ≠ key) := by
  induction entries with
  | nil => simp [insertEntry]
  | cons first rest ih =>
    obtain ⟨least, further⟩ := List.pairwise_cons.1 ordered
    unfold insertEntry
    by_cases before : key < first.1
    · -- The key comes before all others, so none of them is the same.
      have others : ∀ entry ∈ first :: rest, entry.1 ≠ key := by
        intro entry member same
        rcases List.mem_cons.1 member with rfl | member
        · exact QualifiedKind.ne_of_lt before same.symm
        · exact QualifiedKind.ne_of_lt (QualifiedKind.lt_trans before (least entry member)) same.symm
      rw [if_pos before, List.mem_cons]
      exact or_congr_right ⟨fun member => ⟨member, others entry member⟩, And.left⟩
    · rw [if_neg before]
      by_cases same : key = first.1
      · have others : ∀ entry ∈ rest, entry.1 ≠ key := by
          intro entry member equal
          exact QualifiedKind.ne_of_lt (least entry member) (same.symm.trans equal.symm)
        rw [if_pos same, List.mem_cons, List.mem_cons]
        refine or_congr_right ⟨fun member => ⟨Or.inr member, others entry member⟩, ?_⟩
        rintro ⟨rfl | member, other⟩
        · exact absurd same.symm other
        · exact member
      · rw [if_neg same, List.mem_cons, ih further, List.mem_cons]
        constructor
        · rintro (rfl | new | ⟨member, other⟩)
          · exact Or.inr ⟨Or.inl rfl, fun equal => same equal.symm⟩
          · exact Or.inl new
          · exact Or.inr ⟨Or.inr member, other⟩
        · rintro (new | ⟨rfl | member, other⟩)
          · exact Or.inr (Or.inl new)
          · exact Or.inl rfl
          · exact Or.inr (Or.inr ⟨member, other⟩)

theorem pairwise_insertEntry {key : QualifiedKind} {flag : Bool} {entries : List (QualifiedKind × Bool)}
    (ordered : entries.Pairwise fun first later => first.1 < later.1) :
    (insertEntry key flag entries).Pairwise fun first later => first.1 < later.1 := by
  induction entries with
  | nil => exact List.pairwise_singleton _ _
  | cons first rest ih =>
    obtain ⟨least, further⟩ := List.pairwise_cons.1 ordered
    unfold insertEntry
    by_cases before : key < first.1
    · rw [if_pos before]
      refine List.pairwise_cons.2 ⟨?_, ordered⟩
      intro entry member
      rcases List.mem_cons.1 member with rfl | member
      · exact before
      · exact QualifiedKind.lt_trans before (least entry member)
    · rw [if_neg before]
      by_cases same : key = first.1
      · rw [if_pos same]
        exact List.pairwise_cons.2 ⟨fun entry member => same ▸ least entry member, further⟩
      · rw [if_neg same]
        refine List.pairwise_cons.2 ⟨?_, ih further⟩
        intro entry member
        rcases (mem_insertEntry further).1 member with rfl | ⟨member, _⟩
        · exact QualifiedKind.lt_of_not_lt before same
        · exact least entry member

theorem Ordered.insert {table : RuleTable} (ordered : table.Ordered) (key : QualifiedKind) (flag : Bool) :
    (table.insert key flag).Ordered :=
  pairwise_insertEntry ordered

/-- An insertion puts its entry in and takes out no other than that of the same key. -/
theorem Ordered.mem_insert {table : RuleTable} (ordered : table.Ordered) {key : QualifiedKind} {flag : Bool}
    {entry : QualifiedKind × Bool} :
    entry ∈ (table.insert key flag).entries ↔
      entry = (key, flag) ∨ (entry ∈ table.entries ∧ entry.1 ≠ key) :=
  mem_insertEntry ordered

/-- Tables in order with the same entries are the same table. -/
theorem Ordered.eq_of_mem_iff {table other : RuleTable} (ordered : table.Ordered) (alike : other.Ordered)
    (same : ∀ entry, entry ∈ table.entries ↔ entry ∈ other.entries) : table = other := by
  have nodup : ∀ {table : RuleTable}, table.Ordered → table.entries.Nodup := by
    intro table ordered
    exact ordered.imp fun less equal => QualifiedKind.ne_of_lt less (congrArg Prod.fst equal)
  have perm : table.entries.Perm other.entries :=
    (List.perm_ext_iff_of_nodup (nodup ordered) (nodup alike)).2 same
  have entries : table.entries = other.entries := by
    refine List.Perm.eq_of_pairwise ?_ ordered alike perm
    intro first second _ _ less more
    exact absurd (QualifiedKind.lt_trans less more) (QualifiedKind.lt_irrefl _)
  obtain ⟨_⟩ := table
  obtain ⟨_⟩ := other
  exact congrArg RuleTable.mk entries

/-! ## Tables that mark keys -/

/-- In order, the table marks exactly these keys. -/
structure Comprises (table : RuleTable) (keys : QualifiedKind → Prop) : Prop where
  ordered : table.Ordered
  marks : ∀ key flag, (key, flag) ∈ table.entries ↔ flag = true ∧ keys key

theorem comprises_empty : Comprises {} fun _ => False := ⟨ordered_empty, by simp⟩

theorem Comprises.insert {table : RuleTable} {keys : QualifiedKind → Prop} (comprised : table.Comprises keys)
    (new : QualifiedKind) : (table.insert new true).Comprises fun key => key = new ∨ keys key := by
  refine ⟨comprised.ordered.insert new true, ?_⟩
  intro key flag
  rw [comprised.ordered.mem_insert, comprised.marks, Prod.mk.injEq]
  by_cases same : key = new <;> simp [same]

theorem Comprises.unique {table other : RuleTable} {keys : QualifiedKind → Prop}
    (comprised : table.Comprises keys) (also : other.Comprises keys) : table = other :=
  comprised.ordered.eq_of_mem_iff also.ordered fun entry =>
    (comprised.marks entry.1 entry.2).trans (also.marks entry.1 entry.2).symm

theorem Comprises.congr {table : RuleTable} {keys others : QualifiedKind → Prop}
    (comprised : table.Comprises keys) (same : ∀ key, keys key ↔ others key) : table.Comprises others :=
  ⟨comprised.ordered, fun key flag => (comprised.marks key flag).trans (and_congr_right fun _ => same key)⟩

end RuleTable

end EventSieve
