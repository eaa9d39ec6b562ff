import EventSieve.Proofs.Anchor
import EventSieve.Proofs.Literal
import EventSieve.Proofs.Pieces
import Mathlib.Data.List.Forall2

/-!
How a time of day is read. A text has the parts between its colons, two or
three; each is read for itself, from left to right, and the first that is no
integer of 32 bits is reported. A variable is written only when all have been
read, and a third part that is absent counts as zero.
-/

namespace EventSieve.ClockTime

/-- A part and its value: without blanks around it, an integer literal of 32 bits. -/
structure IsPart (part : String) (value : Int) : Prop where
  unpadded : Text.stripped part = part
  written : ∃ literal : Literal, literal.text = part ∧ literal.value = value
  low : -2147483648 ≤ value
  high : value ≤ 2147483647

/-- The reader finds the values of parts. -/
theorem isPart_iff {part : String} {value : Int} :
    IsPart part value ↔ (Text.readInt part.toList).filter inRange = some value := by
  have letters : ∀ literal : Literal, literal.text = part ↔ literal.letters = part.toList := fun literal => by
    rw [Literal.text, ← String.toList_inj, String.toList_ofList]
  rw [Option.filter_eq_some_iff, Text.readInt_eq_some_iff, inRange, Bool.and_eq_true, decide_eq_true_eq,
    decide_eq_true_eq]
  constructor
  · rintro ⟨_, ⟨literal, written, stands⟩, low, high⟩
    exact ⟨⟨literal, (letters literal).1 written, stands⟩, low, high⟩
  · rintro ⟨⟨literal, written, stands⟩, low, high⟩
    have written := (letters literal).2 written
    exact ⟨written ▸ literal.stripped_text, ⟨literal, written, stands⟩, low, high⟩

theorem readPart_of_isPart {part : String} {value : Int} (isPart : IsPart part value) (which : Part) :
    readPart which part.toList = .ok value := by
  rw [readPart, isPart_iff.1 isPart]

theorem readPart_of_not_isPart {part : String} (unreadable : ¬ ∃ value, IsPart part value) (which : Part) :
    readPart which part.toList = .error (.notAnInteger which part) := by
  have nothing : (Text.readInt part.toList).filter inRange = none := by
    rw [Option.eq_none_iff_forall_ne_some]
    exact fun value found => unreadable ⟨value, isPart_iff.2 found⟩
  rw [readPart, nothing, String.ofList_toList]

/-- The names of parts, from left to right. -/
def Part.inOrder : List Part := [.hours, .minutes, .seconds]

/-- The values in order, the rest being zero. -/
def ofValues (values : List Int) : ClockTime := ⟨values.getD 0 0, values.getD 1 0, values.getD 2 0⟩

/-- Parts are read one after the other, and then taken together. -/
theorem read_eq (text : String) :
    read text =
      let parts := Text.split ':' text
      if parts.length = 2 ∨ parts.length = 3 then
        ((Part.inOrder.zip parts).mapM fun entry => readPart entry.1 entry.2.toList).map ofValues
      else .error (.partCount parts.length) := by
  unfold read Text.split
  rcases Text.pieces ':' text.toList with _ | ⟨h, _ | ⟨m, _ | ⟨s, _ | ⟨x, rest⟩⟩⟩⟩
  · rfl
  · rfl
  · simp only [List.map_cons, List.map_nil, List.length_cons, List.length_nil, Part.inOrder,
      List.zip_cons_cons, List.zip_nil_right, List.mapM_cons, List.mapM_nil, String.toList_ofList]
    cases readPart .hours h <;> cases readPart .minutes m <;> rfl
  · simp only [List.map_cons, List.map_nil, List.length_cons, List.length_nil, Part.inOrder,
      List.zip_cons_cons, List.zip_nil_right, List.mapM_cons, List.mapM_nil, String.toList_ofList]
    cases readPart .hours h <;> cases readPart .minutes m <;> cases readPart .seconds s <;> rfl
  · simp

/-- The leftmost part that has no value, with the name at its place. -/
def FirstFault (names : List Part) (parts : List String) (which : Part) (part : String) : Prop :=
  ∃ before after, parts = before ++ part :: after ∧ names[before.length]? = some which ∧
    (∀ earlier ∈ before, ∃ value, IsPart earlier value) ∧ ¬ ∃ value, IsPart part value

theorem FirstFault.later {names : List Part} {parts : List String} {which : Part} {part : String}
    (fault : FirstFault names parts which part) {first : String} {value : Int} (isPart : IsPart first value)
    (name : Part) : FirstFault (name :: names) (first :: parts) which part := by
  obtain ⟨before, after, rfl, named, fine, unreadable⟩ := fault
  exact ⟨first :: before, after, rfl, named, List.forall_mem_cons.2 ⟨⟨value, isPart⟩, fine⟩, unreadable⟩

/-- What a row of parts is read as: the values of all, or the complaint about the leftmost without one. -/
def RowReadAs (names : List Part) (parts : List String) : Except ReadError (List Int) → Prop
  | .ok values => List.Forall₂ IsPart parts values
  | .error problem => ∃ which part, FirstFault names parts which part ∧ problem = .notAnInteger which part

theorem mapM_readAs {names : List Part} {parts : List String} (fits : parts.length ≤ names.length) :
    RowReadAs names parts ((names.zip parts).mapM fun entry => readPart entry.1 entry.2.toList) := by
  induction parts generalizing names with
  | nil =>
    rw [List.zip_nil_right]
    exact .nil
  | cons part rest ih =>
    obtain ⟨name, names, rfl⟩ := List.exists_cons_of_length_pos (Nat.lt_of_lt_of_le (Nat.succ_pos _) fits)
    rw [List.zip_cons_cons, List.mapM_cons]
    by_cases readable : ∃ value, IsPart part value
    · obtain ⟨value, isPart⟩ := readable
      have further := ih (Nat.le_of_succ_le_succ fits)
      rw [readPart_of_isPart isPart name]
      cases result : (names.zip rest).mapM fun entry => readPart entry.1 entry.2.toList with
      | ok values =>
        rw [result] at further
        exact .cons isPart further
      | error problem =>
        rw [result] at further
        obtain ⟨which, faulty, fault, reported⟩ := further
        exact ⟨which, faulty, fault.later isPart name, reported⟩
    · rw [readPart_of_not_isPart readable name]
      exact ⟨name, part, ⟨[], rest, rfl, rfl, by simp, readable⟩, rfl⟩

/-- What a text is read as, told from its parts. -/
def ReadAs (parts : List String) : Except ReadError ClockTime → Prop
  | .ok time => (parts.length = 2 ∨ parts.length = 3) ∧
      ∃ values, List.Forall₂ IsPart parts values ∧ time = ofValues values
  | .error problem =>
    if parts.length = 2 ∨ parts.length = 3 then
      ∃ which part, FirstFault Part.inOrder parts which part ∧ problem = .notAnInteger which part
    else problem = .partCount parts.length

theorem read_readAs (text : String) : ReadAs (Text.split ':' text) (read text) := by
  rw [read_eq]
  by_cases count : (Text.split ':' text).length = 2 ∨ (Text.split ':' text).length = 3
  · have fits : (Text.split ':' text).length ≤ Part.inOrder.length := by
      show _ ≤ 3
      omega
    have row := mapM_readAs fits
    simp only [if_pos count]
    cases result : (Part.inOrder.zip (Text.split ':' text)).mapM fun entry => readPart entry.1 entry.2.toList with
    | ok values =>
      rw [result] at row
      exact ⟨count, values, row, rfl⟩
    | error problem =>
      rw [result] at row
      show if _ then _ else _
      rw [if_pos count]
      exact row
  · simp only [if_neg count]
    show if _ then _ else _
    rw [if_neg count]

/-! ## Which texts are read -/

/-- Of lists whose members are paired, each member of the first has its partner in the second. -/
theorem exists_partner {α β : Type} {R : α → β → Prop} {items : List α} {partners : List β}
    (each : List.Forall₂ R items partners) : ∀ item ∈ items, ∃ partner ∈ partners, R item partner := by
  induction each with
  | nil => simp
  | cons related _ ih =>
    refine List.forall_mem_cons.2 ⟨⟨_, List.mem_cons_self, related⟩, fun item member => ?_⟩
    obtain ⟨partner, known, others⟩ := ih item member
    exact ⟨partner, List.mem_cons_of_mem _ known, others⟩

theorem exists_value {parts : List String} {values : List Int} (each : List.Forall₂ IsPart parts values) :
    ∀ part ∈ parts, ∃ value, IsPart part value := by
  intro part member
  obtain ⟨value, _, isPart⟩ := exists_partner each part member
  exact ⟨value, isPart⟩

theorem FirstFault.not_forall {names : List Part} {parts : List String} {which : Part} {part : String}
    (fault : FirstFault names parts which part) : ¬ ∀ part ∈ parts, ∃ value, IsPart part value := by
  obtain ⟨before, after, rfl, _, _, unreadable⟩ := fault
  exact fun all => unreadable (all part (by simp))

/-- A text is read when it has two or three parts and each has a value. -/
theorem read_isOk_iff {text : String} :
    (∃ time, read text = .ok time) ↔
      ((Text.split ':' text).length = 2 ∨ (Text.split ':' text).length = 3) ∧
      ∀ part ∈ Text.split ':' text, ∃ value, IsPart part value := by
  have outcome := read_readAs text
  cases result : read text with
  | ok time =>
    rw [result] at outcome
    obtain ⟨count, values, each, _⟩ := outcome
    exact iff_of_true ⟨time, rfl⟩ ⟨count, exists_value each⟩
  | error problem =>
    rw [result, ReadAs] at outcome
    refine iff_of_false (by simp) ?_
    rintro ⟨count, all⟩
    rw [if_pos count] at outcome
    obtain ⟨_, _, fault, _⟩ := outcome
    exact fault.not_forall all

theorem IsPart.unique : Relator.RightUnique IsPart := by
  intro part value other isPart also
  exact Option.some.inj ((isPart_iff.1 isPart).symm.trans (isPart_iff.1 also))

theorem IsPart.colon_not_mem {part : String} {value : Int} (isPart : IsPart part value) :
    ':' ∉ part.toList := by
  obtain ⟨literal, rfl, _⟩ := isPart.written
  rw [Literal.text, String.toList_ofList]
  intro colon
  exact absurd (Literal.letter_cases colon) (by decide)

/-- Two or three parts with values are read as these, when they are joined by colons. -/
theorem read_joined {parts : List String} {values : List Int} (count : parts.length = 2 ∨ parts.length = 3)
    (each : List.Forall₂ IsPart parts values) : read (Text.joined ":" parts) = .ok (ofValues values) := by
  have all := exists_value each
  have filled : parts ≠ [] := by
    rintro rfl
    simp at count
  have split : Text.split ':' (Text.joined ":" parts) = parts := by
    refine Text.split_joined filled fun part member => ?_
    obtain ⟨value, isPart⟩ := all part member
    exact isPart.colon_not_mem
  obtain ⟨time, result⟩ := read_isOk_iff.2 (by rw [split]; exact ⟨count, all⟩)
  have outcome := read_readAs (Text.joined ":" parts)
  rw [result, split] at outcome
  obtain ⟨_, others, alsoEach, rfl⟩ := outcome
  rw [result, List.right_unique_forall₂' IsPart.unique each alsoEach]

/-- The digits of a number, after any zeros, are a part that stands for it. -/
theorem isPart_decimal (zeros : Nat) {n : Nat} (high : n ≤ 2147483647) :
    IsPart (String.ofList (List.replicate zeros '0') ++ Text.natText n) n := by
  have written : (Literal.ofNat zeros n).text = String.ofList (List.replicate zeros '0') ++ Text.natText n := by
    rw [Text.natText, ← String.ofList_append]
    rfl
  refine ⟨?_, ⟨Literal.ofNat zeros n, written, Literal.value_ofNat zeros n⟩, by omega, by omega⟩
  rw [← written]
  exact (Literal.ofNat zeros n).stripped_text

/-! ## Reading into a variable -/

theorem readInto_of_ok {text : String} {time : ClockTime} (result : read text = .ok time)
    (old : Variable ClockTime) : readInto text old = (true, { old with value := time }) := by
  rw [readInto, result, Variable.receive]

theorem readInto_of_error {text : String} {problem : ReadError} (result : read text = .error problem)
    (old : Variable ClockTime) : readInto text old = (false, { old with complaint := problem.message }) := by
  rw [readInto, result, Variable.receive]

theorem readInto_done_iff (text : String) (old : Variable ClockTime) :
    (readInto text old).1 = true ↔ ∃ time, read text = .ok time := by
  cases result : read text with
  | ok time => exact iff_of_true (by rw [readInto_of_ok result]) ⟨time, rfl⟩
  | error problem => exact iff_of_false (by simp [readInto_of_error result]) (by simp)

/-- Exact outcome of reading a time of day into a variable, whatever the variable holds. The parts are
    the texts between the colons. Reading succeeds when there are two or three of them and each, with no
    blank before or after it, is an integer literal of 32 bits. Then all fields are written, seconds as
    zero when there is no third part, and the complaint stays. Otherwise no field is written, and the
    complaint tells the number of parts or the leftmost part that is no integer. Decimal digits with
    colons between them are read as the numbers they were written from, whatever zeros lead them. -/
theorem readInto_outcome (text : String) (old : Variable ClockTime) :
    let parts := Text.split ':' text
    let isCount := parts.length = 2 ∨ parts.length = 3
    let done := (readInto text old).1
    let now := (readInto text old).2
    (Text.joined ":" parts = text ∧ ∀ part ∈ parts, ':' ∉ part.toList) ∧
    (done = true ↔ isCount ∧ ∀ part ∈ parts, ∃ value, IsPart part value) ∧
    (done = true → now.complaint = old.complaint ∧ ∃ values, List.Forall₂ IsPart parts values ∧
      now.value = ⟨values.getD 0 0, values.getD 1 0, values.getD 2 0⟩) ∧
    (done = false → now.value = old.value ∧
      (¬ isCount → now.complaint =
        "must be HH:MM or HH:MM:SS, got " ++ Text.natText parts.length ++ " part(s)") ∧
      (isCount → ∃ which part, FirstFault Part.inOrder parts which part ∧
        now.complaint = which.name ++ " component \"" ++ part ++ "\" is not an integer")) ∧
    let decimal (zeros n : Nat) := String.ofList (List.replicate zeros '0') ++ Text.natText n
    ∀ h m s i j k : Nat, h ≤ 2147483647 → m ≤ 2147483647 → s ≤ 2147483647 →
      readInto (Text.joined ":" [decimal i h, decimal j m]) old = (true, { old with value := ⟨h, m, 0⟩ }) ∧
      readInto (Text.joined ":" [decimal i h, decimal j m, decimal k s]) old =
        (true, { old with value := ⟨h, m, s⟩ }) := by
  intro parts isCount done now
  have pieces : Text.joined ":" parts = text ∧ ∀ part ∈ parts, ':' ∉ part.toList :=
    ⟨Text.joined_split ':' text, fun part => Text.separator_not_mem_split⟩
  have outcome : ReadAs parts (read text) := read_readAs text
  refine ⟨pieces, (readInto_done_iff text old).trans read_isOk_iff, ?_, ?_, ?_⟩
  · intro success
    obtain ⟨time, result⟩ := (readInto_done_iff text old).1 success
    rw [result] at outcome
    obtain ⟨_, values, each, rfl⟩ := outcome
    have stored : now = { old with value := ofValues values } := congrArg Prod.snd (readInto_of_ok result old)
    rw [stored]
    exact ⟨rfl, values, each, rfl⟩
  · intro failure
    cases result : read text with
    | ok time =>
      have success : done = true := (readInto_done_iff text old).2 ⟨time, result⟩
      rw [success] at failure
      cases failure
    | error problem =>
      rw [result, ReadAs] at outcome
      have stored : now = { old with complaint := problem.message } :=
        congrArg Prod.snd (readInto_of_error result old)
      rw [stored]
      refine ⟨rfl, fun miscounted => ?_, fun counted => ?_⟩
      · rw [if_neg miscounted] at outcome
        rw [outcome]
        rfl
      · rw [if_pos counted] at outcome
        obtain ⟨which, part, fault, rfl⟩ := outcome
        exact ⟨which, part, fault, rfl⟩
  · intro decimal h m s i j k highHour highMinute highSecond
    have hour := isPart_decimal i highHour
    have minute := isPart_decimal j highMinute
    have second := isPart_decimal k highSecond
    exact ⟨readInto_of_ok (read_joined (Or.inl rfl) (.cons hour (.cons minute .nil))) old,
      readInto_of_ok (read_joined (Or.inr rfl) (.cons hour (.cons minute (.cons second .nil)))) old⟩

/-- A variable that holds a time with seconds and a complaint. Two numbers replace the time and its
    seconds. Of three parts the second is named for the blank before it, though the third has no value
    either. A text without colons is told that it is one part. -/
theorem readInto_outcome_stale :
    let old : Variable ClockTime := ⟨⟨1, 2, 3⟩, "earlier"⟩
    let faulty := (readInto "10: 05:x" old).2
    readInto "007:5" old = (true, ⟨⟨7, 5, 0⟩, "earlier"⟩) ∧
    (∃ values, List.Forall₂ IsPart ["007", "5"] values ∧ ofValues values = ⟨7, 5, 0⟩) ∧
    (faulty.value = old.value ∧ faulty.complaint = "minutes component \" 05\" is not an integer") ∧
    (∃ which part, FirstFault Part.inOrder ["10", " 05", "x"] which part ∧
      faulty.complaint = which.name ++ " component \"" ++ part ++ "\" is not an integer") ∧
    (readInto "noon" old).2.complaint = "must be HH:MM or HH:MM:SS, got 1 part(s)" := by
  intro old faulty
  obtain ⟨_, _, success, _, decimal⟩ := readInto_outcome "007:5" old
  obtain ⟨_, values, each, value⟩ := success (by decide)
  obtain ⟨_, _, _, failure, _⟩ := readInto_outcome "10: 05:x" old
  obtain ⟨unchanged, _, leftmost⟩ := failure (by decide)
  obtain ⟨_, _, _, uncounted, _⟩ := readInto_outcome "noon" old
  have numbers := (decimal 7 5 0 2 0 0 (by decide) (by decide) (by decide)).1
  refine ⟨numbers, ⟨values, each, ?_⟩, ⟨unchanged, rfl⟩, leftmost (by decide),
    (uncounted (by decide)).2.1 (by decide)⟩
  exact value.symm.trans (by decide)

/-! ## Signs -/

/-- One or more ASCII digits and nothing else. -/
def DigitsOnly (part : String) : Prop := part ≠ "" ∧ ∀ c ∈ part.toList, c.isDigit = true

theorem IsPart.digitsOnly_iff {part : String} {value : Int} (isPart : IsPart part value) :
    DigitsOnly part ↔ '+' ∉ part.toList ∧ '-' ∉ part.toList := by
  obtain ⟨literal, rfl, _⟩ := isPart.written
  rw [DigitsOnly, and_iff_right literal.text_ne_empty, Literal.text, String.toList_ofList]
  exact literal.digits_iff

theorem IsPart.nonneg {part : String} {value : Int} (isPart : IsPart part value) (minus : '-' ∉ part.toList) :
    0 ≤ value := by
  obtain ⟨literal, rfl, rfl⟩ := isPart.written
  rw [Literal.text, String.toList_ofList] at minus
  exact Literal.value_nonneg minus

theorem fields_nonneg {values : List Int} (each : ∀ value ∈ values, 0 ≤ value) :
    0 ≤ (ofValues values).hour ∧ 0 ≤ (ofValues values).minute ∧ 0 ≤ (ofValues values).second := by
  have field (i : Nat) : 0 ≤ values.getD i 0 := by
    rw [List.getD_eq_getElem?_getD]
    cases known : values[i]? with
    | none => exact Int.le_refl 0
    | some value => exact each value (List.mem_of_getElem? known)
  exact ⟨field 0, field 1, field 2⟩

/-- The anchor lies before the day of the reference when the time of day comes to less than nothing. -/
theorem anchor_lt_midnight_iff (time : ClockTime) (reference : Stamp) :
    time.anchor reference < reference.midnight ↔ 3600 * time.hour + 60 * time.minute + time.second < 0 := by
  obtain ⟨low, high⟩ := reference.subsecond_bounds
  rw [anchor_eq_midnight_add]
  unfold nanosPerSecond at high ⊢
  omega

/-- What signs do to a time of day that is read. Its parts are integer literals, and digits only unless
    the text has a plus or a minus sign. Without a minus sign no field is negative, and the anchor is at
    the start of the reference's day or after it. With one the anchor may lie on an earlier day. -/
theorem parts_of_read {text : String} {time : ClockTime} (readable : read text = .ok time) (reference : Stamp) :
    let parts := Text.split ':' text
    (∀ part ∈ parts, ∃ literal : Literal, literal.text = part) ∧
    ((∀ part ∈ parts, DigitsOnly part) ↔ '+' ∉ text.toList ∧ '-' ∉ text.toList) ∧
    ('-' ∉ text.toList → (0 ≤ time.hour ∧ 0 ≤ time.minute ∧ 0 ≤ time.second) ∧
      reference.midnight ≤ time.anchor reference) ∧
    (Stamp.mk reference.midnight reference.zone).civil = ⟨reference.civil.date, 0, 0, 0⟩ ∧
    (time.anchor reference < reference.midnight ↔
      3600 * time.hour + 60 * time.minute + time.second < 0) := by
  intro parts
  have outcome : ReadAs parts (read text) := read_readAs text
  rw [readable] at outcome
  obtain ⟨_, values, each, rfl⟩ := outcome
  have signs (sign : Char) (other : sign ≠ ':') :
      sign ∉ text.toList ↔ ∀ part ∈ parts, sign ∉ part.toList := by
    rw [Text.mem_toList_iff other, not_exists]
    exact forall_congr' fun part => not_and
  refine ⟨?_, ?_, ?_, reference.civil_midnight, anchor_lt_midnight_iff _ reference⟩
  · intro part member
    obtain ⟨value, isPart⟩ := exists_value each part member
    obtain ⟨literal, written, _⟩ := isPart.written
    exact ⟨literal, written⟩
  · rw [signs '+' (by decide), signs '-' (by decide), ← forall₂_and]
    refine forall₂_congr fun part member => ?_
    obtain ⟨value, isPart⟩ := exists_value each part member
    exact isPart.digitsOnly_iff
  · intro minus
    have low : ∀ value ∈ values, 0 ≤ value := by
      intro value member
      obtain ⟨part, known, isPart⟩ := exists_partner each.flip value member
      exact IsPart.nonneg isPart ((signs '-' (by decide)).1 minus part known)
    obtain ⟨hour, minute, second⟩ := fields_nonneg low
    refine ⟨⟨hour, minute, second⟩, not_lt.1 fun before => ?_⟩
    have length := (anchor_lt_midnight_iff _ reference).1 before
    omega

/-- Digits alone are read, and their anchor is on the day of the reference or later. -/
theorem parts_of_read_digits :
    (∀ part ∈ Text.split ':' "07:05:09", DigitsOnly part) ∧
    (Stamp.mk 0 3600).midnight ≤ (ClockTime.mk 7 5 9).anchor ⟨0, 3600⟩ := by
  have readable : read "07:05:09" = .ok ⟨7, 5, 9⟩ := by rfl
  obtain ⟨_, digits, later, _⟩ := parts_of_read readable ⟨0, 3600⟩
  exact ⟨digits.2 (by decide), (later (by decide)).2⟩

/-- Parts with signs are read as well: an hour below zero, and half an hour more, is a time on the day
    before. -/
theorem signed_parts_read :
    read "-1:+30" = .ok ⟨-1, 30, 0⟩ ∧ ¬ (∀ part ∈ Text.split ':' "-1:+30", DigitsOnly part) ∧
    (ClockTime.mk (-1) 30 0).anchor ⟨0, 0⟩ < (Stamp.mk 0 0).midnight := by
  refine ⟨by rfl, fun digits => ?_, by decide⟩
  have part : DigitsOnly "-1" := digits "-1" (by decide)
  exact absurd (part.2 '-' (by decide)) (by decide)

end EventSieve.ClockTime
