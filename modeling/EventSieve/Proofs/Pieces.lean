import EventSieve.Text

/-!
Texts and their pieces. The pieces between separators hold none, and joined with
the separator again they are the text; pieces that hold no separator come back
from the text that they are joined to.
-/

namespace EventSieve.Text

/-- The pieces of a text are what lists are split into. -/
theorem pieces_eq_splitOn (separator : Char) (text : List Char) :
    pieces separator text = text.splitOn separator := by
  induction text with
  | nil => rfl
  | cons c rest ih =>
    have step : pieces separator (c :: rest) =
        if c = separator then [] :: pieces separator rest
        else (pieces separator rest).modifyHead (c :: ·) := by
      by_cases here : c = separator <;> simp [pieces, splitFirst, here]
    simp only [step, ih, List.splitOn_cons_eq_if_modifyHead, beq_iff_eq]

theorem joined_eq_intercalate (separator : String) (texts : List String) :
    joined separator texts = separator.intercalate texts := by
  induction texts with
  | nil => rw [joined, String.intercalate_nil]
  | cons first rest ih =>
    cases rest with
    | nil => rw [joined, String.intercalate_singleton]
    | cons second others => simp [joined, ih, String.intercalate_cons_cons]

/-- The pieces joined again are the text. -/
theorem joined_split (separator : Char) (text : String) :
    joined (String.singleton separator) (split separator text) = text := by
  have same : String.toList ∘ String.ofList = id := funext fun _ => String.toList_ofList
  rw [joined_eq_intercalate, ← String.toList_inj, String.toList_intercalate, String.toList_singleton, split,
    List.map_map, same, List.map_id, pieces_eq_splitOn, List.intercalate_splitOn]

/-- Pieces without the separator are those of the text that they are joined to. -/
theorem split_joined {separator : Char} {texts : List String} (filled : texts ≠ [])
    (bare : ∀ text ∈ texts, separator ∉ text.toList) :
    split separator (joined (String.singleton separator) texts) = texts := by
  have letters : ∀ piece ∈ texts.map String.toList, separator ∉ piece := List.forall_mem_map.2 bare
  have same : String.ofList ∘ String.toList = id := funext fun _ => String.ofList_toList
  rw [split, joined_eq_intercalate, String.toList_intercalate, String.toList_singleton, pieces_eq_splitOn,
    List.splitOn_intercalate separator letters (by simpa using filled), List.map_map, same, List.map_id]

theorem separator_not_mem_pieces {separator : Char} {text piece : List Char}
    (member : piece ∈ pieces separator text) : separator ∉ piece := by
  induction text generalizing piece with
  | nil => simp_all [pieces, splitFirst]
  | cons c rest ih =>
    have first : separator ∉ (splitFirst separator rest).1 := ih List.mem_cons_self
    have others : ∀ piece ∈ (splitFirst separator rest).2, separator ∉ piece :=
      fun piece other => ih (List.mem_cons_of_mem _ other)
    by_cases here : c = separator
    · simp only [pieces, splitFirst, if_pos here, List.mem_cons] at member
      rcases member with rfl | rfl | member
      · exact List.not_mem_nil
      · exact first
      · exact others piece member
    · simp only [pieces, splitFirst, if_neg here, List.mem_cons] at member
      rcases member with rfl | member
      · exact List.not_mem_cons_of_ne_of_not_mem (Ne.symm here) first
      · exact others piece member

/-- No piece holds the separator. -/
theorem separator_not_mem_split {separator : Char} {text piece : String} (member : piece ∈ split separator text) :
    separator ∉ piece.toList := by
  obtain ⟨letters, known, rfl⟩ := List.mem_map.1 member
  rw [String.toList_ofList]
  exact separator_not_mem_pieces known

/-- There is one piece more than there are separators. -/
theorem length_split (separator : Char) (text : String) :
    (split separator text).length = text.toList.count separator + 1 := by
  have letters : ∀ text : List Char, (pieces separator text).length = text.count separator + 1 := by
    intro text
    induction text with
    | nil => rfl
    | cons c rest ih =>
      simp only [pieces, List.length_cons] at ih
      by_cases here : c = separator <;> simp [pieces, splitFirst, here] <;> omega
  rw [split, List.length_map, letters]

theorem mem_toList_joined {separator c : Char} (other : c ≠ separator) (texts : List String) :
    c ∈ (joined (String.singleton separator) texts).toList ↔ ∃ text ∈ texts, c ∈ text.toList := by
  fun_induction joined (String.singleton separator) texts with
  | case1 => simp
  | case2 text => simp
  | case3 text rest _ ih => simp [ih, other]

/-- The characters of a text but the separator are those of its pieces. -/
theorem mem_toList_iff {separator c : Char} (other : c ≠ separator) {text : String} :
    c ∈ text.toList ↔ ∃ piece ∈ split separator text, c ∈ piece.toList := by
  rw [← mem_toList_joined other, joined_split]

end EventSieve.Text
