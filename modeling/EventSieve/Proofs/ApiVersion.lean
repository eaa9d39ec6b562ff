import EventSieve.ApiVersion
import EventSieve.Proofs.Pieces
import Mathlib.Tactic.ByContra

/-!
API versions and their texts. A text is read if it has at most one slash, and
what is read writes the text again (`ApiVersion.Writes`), so group and version
are exactly the parts. A version of the core group has a second text, with a
slash before it, and two texts of one version differ in nothing else.
-/

namespace EventSieve.ApiVersion

def slashes (text : String) : Nat := text.toList.count '/'

/-- The text is one of the API version: both parts with the slash between them, or the version
    alone when there is no group. -/
structure Writes (found : ApiVersion) (text : String) : Prop where
  bareGroup : '/' ∉ found.group.toList
  bareVersion : '/' ∉ found.version.toList
  spelled : text = found.group ++ "/" ++ found.version ∨ (found.group = "" ∧ text = found.version)

/-- Exact parts of a text, or its refusal for the slashes in it. -/
def ReadAs (text : String) : Except ReadError ApiVersion → Prop
  | .ok found => found.Writes text
  | .error problem => 2 ≤ slashes text ∧ problem = .manySlashes text

theorem read_readAs (text : String) : ReadAs text (read text) := by
  have bare : ∀ part ∈ Text.split '/' text, '/' ∉ part.toList := fun part => Text.separator_not_mem_split
  have joined : Text.joined "/" (Text.split '/' text) = text := Text.joined_split '/' text
  have count : (Text.split '/' text).length = slashes text + 1 := Text.length_split '/' text
  rw [read]
  generalize Text.split '/' text = parts at bare joined count
  match parts with
  | [] => simp at count
  | [version] =>
    exact ⟨List.not_mem_nil, bare version (by simp), Or.inr ⟨rfl, joined.symm⟩⟩
  | [group, version] =>
    exact ⟨bare group (by simp), bare version (by simp), Or.inl joined.symm⟩
  | first :: second :: third :: rest =>
    rw [List.length_cons, List.length_cons, List.length_cons] at count
    exact ⟨by omega, rfl⟩

namespace Writes
variable {found : ApiVersion} {text : String}

theorem slashes_le (writes : found.Writes text) : slashes text ≤ 1 := by
  have group := List.count_eq_zero.2 writes.bareGroup
  have later := List.count_eq_zero.2 writes.bareVersion
  rcases writes.spelled with rfl | ⟨_, rfl⟩
  · simp [slashes, group, later]
  · simp [slashes, later]

/-- A text with a slash has both parts in it. -/
theorem eq_append (writes : found.Writes text) (one : slashes text = 1) :
    text = found.group ++ "/" ++ found.version := by
  rcases writes.spelled with both | ⟨_, rfl⟩
  · exact both
  · rw [slashes, List.count_eq_zero.2 writes.bareVersion] at one
    cases one

/-- A text without a slash is a version of the core group. -/
theorem eq_version (writes : found.Writes text) (unslashed : slashes text = 0) :
    text = found.version ∧ found.group = "" := by
  rcases writes.spelled with rfl | ⟨core, alone⟩
  · simp [slashes] at unslashed
  · exact ⟨alone, core⟩

end Writes

theorem read_of_slash_not_mem {text : String} (bare : '/' ∉ text.toList) :
    read text = .ok { version := text } := by
  have parts : Text.split '/' text = [text] := @Text.split_joined '/' [text] (by simp) (by simpa using bare)
  rw [read, parts]

theorem read_append {group version : String} (bareGroup : '/' ∉ group.toList) (bareVersion : '/' ∉ version.toList) :
    read (group ++ "/" ++ version) = .ok ⟨group, version⟩ := by
  have parts : Text.split '/' (group ++ "/" ++ version) = [group, version] :=
    @Text.split_joined '/' [group, version] (by simp) (by simp [bareGroup, bareVersion])
  rw [read, parts]

/-- What a text of an API version is read as. -/
theorem Writes.read_eq {found : ApiVersion} {text : String} (writes : found.Writes text) :
    read text = .ok found := by
  obtain ⟨group, version⟩ := found
  rcases writes.spelled with rfl | ⟨rfl, rfl⟩
  · exact read_append writes.bareGroup writes.bareVersion
  · exact read_of_slash_not_mem writes.bareVersion

theorem read_eq_ok_iff {text : String} {found : ApiVersion} : read text = .ok found ↔ found.Writes text := by
  constructor
  · intro reading
    have outcome := read_readAs text
    rw [reading] at outcome
    exact outcome
  · exact Writes.read_eq

theorem read_of_slashes {text : String} (many : 2 ≤ slashes text) : read text = .error (.manySlashes text) := by
  have outcome := read_readAs text
  cases reading : read text with
  | ok found =>
    have few := (read_eq_ok_iff.1 reading).slashes_le
    omega
  | error problem =>
    rw [reading] at outcome
    exact congrArg Except.error outcome.2

theorem exists_writes {text : String} (few : slashes text ≤ 1) : ∃ found : ApiVersion, found.Writes text := by
  have outcome := read_readAs text
  cases reading : read text with
  | ok found => exact ⟨found, read_eq_ok_iff.1 reading⟩
  | error problem =>
    rw [reading] at outcome
    have many := outcome.1
    omega

/-! ## Two texts of one version -/

/-- The text without a slash that it starts with. -/
def withoutFirstSlash (text : String) : String :=
  match text.toList with
  | '/' :: rest => String.ofList rest
  | _ => text

/-- The shortest text of an API version, without a slash when there is no group. -/
def shortText (version : ApiVersion) : String :=
  if version.group = "" then version.version else version.group ++ "/" ++ version.version

theorem withoutFirstSlash_slash (rest : String) : withoutFirstSlash ("/" ++ rest) = rest := by
  simp [withoutFirstSlash]

theorem withoutFirstSlash_eq {text : String} (other : text.toList.head? ≠ some '/') :
    withoutFirstSlash text = text := by
  unfold withoutFirstSlash
  split
  · rename_i rest letters
    simp [letters] at other
  · rfl

/-- But for a first slash every text of an API version is its shortest one. -/
theorem Writes.withoutFirstSlash_eq_shortText {found : ApiVersion} {text : String} (writes : found.Writes text) :
    withoutFirstSlash text = found.shortText := by
  have unslashed {text : String} (bare : '/' ∉ text.toList) : text.toList.head? ≠ some '/' :=
    fun first => bare (List.mem_of_head? first)
  by_cases core : found.group = ""
  · rw [shortText, if_pos core]
    rcases writes.spelled with rfl | ⟨_, rfl⟩
    · rw [core, String.empty_append, withoutFirstSlash_slash]
    · exact withoutFirstSlash_eq (unslashed writes.bareVersion)
  · rw [shortText, if_neg core]
    obtain rfl := writes.spelled.resolve_right fun alone => core alone.1
    refine withoutFirstSlash_eq ?_
    obtain ⟨first, rest, letters⟩ := List.exists_cons_of_ne_nil (mt String.toList_eq_nil_iff.1 core)
    have head := unslashed writes.bareGroup
    simpa [letters] using head

theorem Writes.shortText {found : ApiVersion} {text : String} (writes : found.Writes text) :
    found.Writes found.shortText := by
  refine ⟨writes.bareGroup, writes.bareVersion, ?_⟩
  by_cases core : found.group = ""
  · exact Or.inr ⟨core, if_pos core⟩
  · exact Or.inl (if_neg core)

theorem Writes.eq_iff {found other : ApiVersion} {text more : String} (writes : found.Writes text)
    (also : other.Writes more) : found = other ↔ withoutFirstSlash text = withoutFirstSlash more := by
  rw [writes.withoutFirstSlash_eq_shortText, also.withoutFirstSlash_eq_shortText]
  constructor
  · rintro rfl
    rfl
  · intro same
    have reading := writes.shortText.read_eq
    rw [same, also.shortText.read_eq] at reading
    exact (Except.ok.inj reading).symm

/-! ## Reading into a variable -/

theorem readInto_of_writes {found : ApiVersion} {text : String} (writes : found.Writes text)
    (old : Variable ApiVersion) : readInto text old = (true, ⟨found, old.complaint⟩) := by
  rw [readInto, writes.read_eq]
  rfl

theorem readInto_of_slashes {text : String} (many : 2 ≤ slashes text) (old : Variable ApiVersion) :
    readInto text old = (false, ⟨⟨"", ""⟩, "unexpected GroupVersion string: " ++ text⟩) := by
  rw [readInto, read_of_slashes many]
  rfl

theorem readInto_accepted_iff {text : String} {old : Variable ApiVersion} :
    (readInto text old).1 = true ↔ slashes text ≤ 1 := by
  constructor
  · intro accepted
    by_contra many
    rw [readInto_of_slashes (by omega) old] at accepted
    cases accepted
  · intro few
    obtain ⟨found, writes⟩ := exists_writes few
    rw [readInto_of_writes writes old]

/-- Reading splits a text exactly, whatever the variable holds. A text is read if it has at most one
    slash; the parts have none, write the text again and leave the complaint. Another text empties the
    variable and is complained of in full. What two parts without a slash are joined to gives them back,
    and texts with the same parts are the same but for a first slash. -/
theorem readInto_parts (text : String) (old : Variable ApiVersion) :
    let (accepted, now) := readInto text old
    (accepted = true ↔ slashes text ≤ 1) ∧
    (accepted = true →
      '/' ∉ now.value.group.toList ∧ '/' ∉ now.value.version.toList ∧
      (slashes text = 1 → text = now.value.group ++ "/" ++ now.value.version) ∧
      (slashes text = 0 → text = now.value.version ∧ now.value.group = "") ∧
      now.complaint = old.complaint) ∧
    (accepted = false →
      now.value = ⟨"", ""⟩ ∧ now.complaint = "unexpected GroupVersion string: " ++ text) ∧
    (∀ group version : String, '/' ∉ group.toList → '/' ∉ version.toList →
      readInto (group ++ "/" ++ version) old = (true, ⟨⟨group, version⟩, old.complaint⟩)) ∧
    ∀ (other : String) (before : Variable ApiVersion), accepted = true → (readInto other before).1 = true →
      (now.value = (readInto other before).2.value ↔ withoutFirstSlash text = withoutFirstSlash other) := by
  have joined : ∀ group version : String, '/' ∉ group.toList → '/' ∉ version.toList →
      readInto (group ++ "/" ++ version) old = (true, ⟨⟨group, version⟩, old.complaint⟩) := by
    intro group version bareGroup bareVersion
    have writes : Writes ⟨group, version⟩ (group ++ "/" ++ version) := ⟨bareGroup, bareVersion, Or.inl rfl⟩
    exact readInto_of_writes writes old
  by_cases few : slashes text ≤ 1
  · obtain ⟨found, writes⟩ := exists_writes few
    rw [readInto_of_writes writes old]
    refine ⟨iff_of_true rfl few, fun _ => ?_, nofun, joined, ?_⟩
    · exact ⟨writes.bareGroup, writes.bareVersion, writes.eq_append, writes.eq_version, rfl⟩
    · intro other before _ accepted
      obtain ⟨second, also⟩ := exists_writes (readInto_accepted_iff.1 accepted)
      rw [readInto_of_writes also before]
      exact writes.eq_iff also
  · rw [readInto_of_slashes (by omega) old]
    exact ⟨iff_of_false Bool.false_ne_true few, nofun, fun _ => ⟨rfl, rfl⟩, joined, nofun⟩

/-- The two texts of a version of the core group, a version in a group, and a text with two slashes,
    all read into a variable that holds something else. -/
theorem readInto_parts_first_slash :
    let old : Variable ApiVersion := ⟨⟨"apps", "v1"⟩, "earlier"⟩
    (readInto "/v1" old).1 = true ∧ (readInto "v1" old).1 = true ∧
    (readInto "/v1" old).2.value = (readInto "v1" old).2.value ∧
    readInto ("batch" ++ "/" ++ "v1") old = (true, ⟨⟨"batch", "v1"⟩, "earlier"⟩) ∧
    (readInto "a/b/c" old).1 = false ∧ (readInto "a/b/c" old).2.value = ⟨"", ""⟩ := by
  intro old
  obtain ⟨slashed, _, _, joined, collides⟩ := readInto_parts "/v1" old
  obtain ⟨plain, _⟩ := readInto_parts "v1" old
  obtain ⟨_, _, refused, _⟩ := readInto_parts "a/b/c" old
  have first := slashed.2 (by decide)
  have second := plain.2 (by decide)
  exact ⟨first, second, (collides "v1" old first second).2 (by decide +kernel),
    joined "batch" "v1" (by decide) (by decide), by decide, (refused (by decide)).1⟩

end EventSieve.ApiVersion
