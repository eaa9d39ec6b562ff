import EventSieve.Proofs.Format

/-!
The faults of settings. Each check says by itself what is wrong with a JSON
value, whatever the others find, and the checks stand in a fixed order
(`Config.faults`). Reading reports the first of the faults and has a result only
where there is none. In a row of readings into one variable a refused one
therefore changes nothing but the complaint, and is noted once.
-/

namespace EventSieve

/-- The first of the faults is reported, and there is a result only without any. -/
def Reports {ε α : Type} (result : Except ε α) (faults : List ε) : Prop :=
  match result with
  | .ok _ => faults = []
  | .error problem => faults.head? = some problem

namespace Reports
variable {ε α β : Type} {faults more : List ε}

/-- What is wrong further on does not count after a first fault. -/
theorem append {problem : ε} (first : Reports (.error problem : Except ε α) faults) (more : List ε) :
    Reports (.error problem : Except ε β) (faults ++ more) := by
  have found : faults.head? = some problem := first
  show (faults ++ more).head? = some problem
  rw [List.head?_append, found, Option.some_or]

theorem wrap {η : Type} {problem : ε} (first : Reports (.error problem : Except ε α) faults) (f : ε → η) :
    Reports (.error (f problem) : Except η α) (faults.map f) := by
  have found : faults.head? = some problem := first
  show (faults.map f).head? = some (f problem)
  rw [List.head?_map, found, Option.map_some]

theorem bind {first : Except ε α} {next : α → Except ε β} (here : Reports first faults)
    (there : ∀ a, first = .ok a → Reports (next a) more) : Reports (first >>= next) (faults ++ more) := by
  cases first with
  | ok a =>
    have clean : faults = [] := here
    rw [clean]
    exact there a rfl
  | error problem => exact here.append more

theorem map {result : Except ε α} (reports : Reports result faults) (f : α → β) :
    Reports (result.map f) faults := by
  cases result with
  | ok a => exact reports
  | error problem => exact reports

theorem error_iff {result : Except ε α} (reports : Reports result faults) {problem : ε} :
    result = .error problem ↔ faults.head? = some problem := by
  cases result with
  | ok a =>
    have clean : faults = [] := reports
    simp [clean]
  | error other =>
    have found : faults.head? = some other := reports
    rw [found, Except.error.injEq, Option.some.injEq]

end Reports

/-- The type of a parameter that the value can be for, if there is one. -/
def Json.paramType? : Json → Option ParamType
  | .bool _ => some .bool
  | .string _ => some .string
  | .array _ => some .list
  | _ => none

def Json.textUnder? (json : Json) (key : String) : Option String := (json.member? key).bind Json.string?

/-- The elements of the list under a key, none if there is no list. -/
def Json.itemsUnder (json : Json) (key : String) : List Json :=
  match json.member? key with
  | some (.array items) => items
  | _ => []

/-! ## Faults of parameters -/

namespace Param

def absenceFaults (json : Json) (key : String) : List ParamError :=
  if (json.member? key).isSome then [] else [.missingMandatory key]

def typeFaults (json : Json) (key : String) (type : ParamType) : List ParamError :=
  match json.member? key with
  | none => []
  | some value => if value.paramType? = some type then [] else [.wrongType key type]

def elementFaults (json : Json) (key : String) : List ParamError :=
  (json.itemsUnder key).flatMap fun item => if item.paramType? = some .string then [] else [.wrongElement key]

theorem flag_reports (json : Json) (key : String) : Reports (flag json key) (typeFaults json key .bool) := by
  unfold flag typeFaults
  cases json.member? key with
  | none => rfl
  | some value => cases value <;> rfl

theorem text_reports (json : Json) (key : String) : Reports (text json key) (typeFaults json key .string) := by
  unfold text typeFaults
  cases json.member? key with
  | none => rfl
  | some value => cases value <;> rfl

theorem mandatoryText_reports (json : Json) (key : String) :
    Reports (mandatoryText json key) (absenceFaults json key ++ typeFaults json key .string) := by
  unfold mandatoryText absenceFaults typeFaults
  cases json.member? key with
  | none => rfl
  | some value => cases value <;> rfl

theorem items_reports {json : Json} {key : String} (present : (json.member? key).isSome = true) :
    Reports (items json key) (typeFaults json key .list) := by
  unfold items typeFaults
  cases member : json.member? key with
  | none => simp [member] at present
  | some value => cases value <;> rfl

theorem allTexts_reports (key : String) (items : List Json) :
    Reports (match allTexts items with
      | some values => .ok (some values)
      | none => .error (.wrongElement key))
      (items.flatMap fun item => if item.paramType? = some .string then [] else [ParamError.wrongElement key]) := by
  induction items with
  | nil => rfl
  | cons item rest ih =>
    cases item with
    | string text =>
      cases reading : allTexts rest with
      | none => simpa [allTexts, reading, Json.paramType?] using ih
      | some values => simpa [allTexts, reading, Json.paramType?, Reports] using ih
    | _ => rfl

theorem texts_reports (json : Json) (key : String) :
    Reports (texts json key) (typeFaults json key .list ++ elementFaults json key) := by
  unfold texts typeFaults elementFaults Json.itemsUnder
  cases json.member? key with
  | none => rfl
  | some value =>
    cases value with
    | array items => exact allTexts_reports key items
    | _ => rfl

end Param

/-! ## Faults of settings -/

namespace Config

/-- An element of `Kinds` is an object with a text under `Kind`, not the empty one, and a text under
    `Group` if there is such a member. -/
def kindFaults (item : Json) : List ConfigError :=
  (if item.isObject then [] else [.kindNotAnObject]) ++
    (Param.absenceFaults item "Kind" ++ Param.typeFaults item "Kind" .string).map .param ++
    (if item.textUnder? "Kind" = some "" then [.kindEmpty] else []) ++
    (Param.typeFaults item "Group" .string).map .param

def kindsFaults (json : Json) : List ConfigError :=
  (Param.typeFaults json "Kinds" .list).map .param ++ (json.itemsUnder "Kinds").flatMap kindFaults

def modeFaults (json : Json) : List ConfigError :=
  let text := (json.textUnder? "KindMatchMode").getD ""
  (Param.typeFaults json "KindMatchMode" .string).map .param ++
    if text ∈ ["", "legacy", "exclusion_first"] then [] else [.modeUnknown text]

def spanFaults (json : Json) : List ConfigError :=
  let text := (json.textUnder? "AroundDuration").getD ""
  (Param.typeFaults json "AroundDuration" .string).map .param ++
    if text = "" then []
    else (if Span.read text = none then [.spanUnreadable text] else []) ++
      (if ∃ span ∈ Span.read text, span.isNegative = true then [.spanNegative text] else [])

def listFaults (json : Json) (key : String) : List ConfigError :=
  (Param.typeFaults json key .list ++ Param.elementFaults json key).map .param

/-- All that is wrong with a JSON value as one of settings, in the order of the checks. -/
def faults (json : Json) : List ConfigError :=
  (if json.isObject then [] else [.notAnObject]) ++
    (Param.typeFaults json "WarningsOnly" .bool).map .param ++
    ["Namespaces", "Names", "UIDs", "Reasons", "Components"].flatMap (listFaults json) ++
    kindsFaults json ++ modeFaults json ++
    (Param.typeFaults json "Around" .string).map .param ++ spanFaults json

theorem orDefault_reports {α : Type} {found : Except ParamError (Option α)} {faults : List ParamError}
    (reports : Reports found faults) (standard : α) :
    Reports (orDefault standard found) (faults.map .param) := by
  cases found with
  | ok value =>
    have clean : faults = [] := reports
    rw [clean]
    rfl
  | error problem => exact reports.wrap ConfigError.param

theorem decodeKind_reports (item : Json) : Reports (decodeKind item) (kindFaults item) := by
  unfold decodeKind kindFaults
  by_cases isObject : item.isObject = true
  · rw [if_pos isObject, if_pos isObject, List.nil_append, List.append_assoc]
    have kind := Param.mandatoryText_reports item "Kind"
    cases reading : Param.mandatoryText item "Kind" with
    | error problem =>
      rw [reading] at kind
      exact (kind.wrap ConfigError.param).append _
    | ok text =>
      rw [reading] at kind
      have found : item.textUnder? "Kind" = some text := by
        simp [Json.textUnder?, Param.mandatoryText_eq_ok_iff.1 reading, Json.string?]
      rw [show _ ++ _ = [] from kind, found]
      by_cases empty : text = ""
      · simp [empty, Reports]
      · simp only [if_neg empty, Option.some.injEq, List.map_nil, List.nil_append]
        exact (orDefault_reports (Param.text_reports item "Group") "").map _
  · rw [if_neg isObject, if_neg isObject]
    rfl

theorem decodeKinds_reports (items : List Json) (kinds : RuleTable) :
    Reports (decodeKinds items kinds) (items.flatMap kindFaults) := by
  induction items generalizing kinds with
  | nil => rfl
  | cons item rest ih =>
    have here := decodeKind_reports item
    unfold decodeKinds
    rw [List.flatMap_cons]
    cases reading : decodeKind item with
    | error problem =>
      rw [reading] at here
      exact here.append _
    | ok key =>
      rw [reading] at here
      rw [show kindFaults item = [] from here]
      exact ih _

theorem kindsOf_reports (json : Json) : Reports (kindsOf json) (kindsFaults json) := by
  unfold kindsOf kindsFaults
  by_cases present : (json.member? "Kinds").isSome = true
  · have list := Param.items_reports present
    rw [if_pos present]
    cases reading : Param.items json "Kinds" with
    | error problem =>
      rw [reading] at list
      exact (list.wrap ConfigError.param).append _
    | ok items =>
      rw [reading] at list
      have found : json.itemsUnder "Kinds" = items := by
        simp [Json.itemsUnder, Param.items_eq_ok_iff.1 reading]
      rw [show Param.typeFaults _ _ _ = [] from list, found]
      exact decodeKinds_reports items {}
  · have absent : json.member? "Kinds" = none := by simpa using present
    simp [absent, Param.typeFaults, Json.itemsUnder, Reports]

theorem textUnder_of_ok {json : Json} {key text : String}
    (found : orDefault "" (Param.text json key) = .ok text) : (json.textUnder? key).getD "" = text := by
  have stands := text_stands_iff.1 found
  unfold Stands at stands
  unfold Json.textUnder?
  cases member : json.member? key with
  | none =>
    rw [member] at stands
    exact Eq.symm stands
  | some value =>
    rw [member] at stands
    rw [show value = .string text from stands]
    rfl

/-- A text that is checked further, once its type is right. -/
theorem checkedText_reports {α : Type} (json : Json) (key : String) {next : String → Except ConfigError α}
    {more : List ConfigError}
    (there : ∀ text, (json.textUnder? key).getD "" = text → Reports (next text) more) :
    Reports (match orDefault "" (Param.text json key) with
      | .error problem => .error problem
      | .ok text => next text)
      ((Param.typeFaults json key .string).map .param ++ more) := by
  have typed := orDefault_reports (Param.text_reports json key) ""
  cases reading : orDefault "" (Param.text json key) with
  | error problem =>
    rw [reading] at typed
    exact typed.append _
  | ok text =>
    rw [reading] at typed
    rw [show List.map _ _ = [] from typed]
    exact there text (textUnder_of_ok reading)

theorem modeOf_reports (json : Json) : Reports (modeOf json) (modeFaults json) := by
  refine checkedText_reports json "KindMatchMode" fun text found => ?_
  rw [found]
  by_cases empty : text = ""
  · simp [empty, Reports]
  · simp only [if_neg empty]
    cases named : KindMode.ofName? text with
    | none =>
      have unknown : text ∉ ["", "legacy", "exclusion_first"] := by
        rw [← exists_describesMode_iff]
        rintro ⟨mode, ⟨nothing, _⟩ | name⟩
        · exact empty nothing
        · rw [ofName_eq_some_iff.2 name] at named
          cases named
      rw [if_neg unknown]
      rfl
    | some mode =>
      have known : text ∈ ["", "legacy", "exclusion_first"] :=
        exists_describesMode_iff.1 ⟨mode, Or.inr (ofName_eq_some_iff.1 named)⟩
      rw [if_pos known]
      rfl

theorem aroundSpanOf_reports (json : Json) : Reports (aroundSpanOf json) (spanFaults json) := by
  refine checkedText_reports json "AroundDuration" fun text found => ?_
  rw [found]
  by_cases empty : text = ""
  · simp [empty, Reports]
  · simp only [if_neg empty]
    cases Span.read text with
    | none => simp [Reports]
    | some span => by_cases negative : span.isNegative = true <;> simp [negative, Reports]

/-- Reading reports the first fault. -/
theorem decode_reports (json : Json) : Reports (decode json) (faults json) := by
  unfold decode faults
  by_cases isObject : json.isObject = true
  · rw [if_pos isObject, if_pos isObject]
    simp only [List.nil_append, List.flatMap_cons, List.flatMap_nil, List.append_nil, List.append_assoc]
    have list (key : String) : Reports (orDefault [] (Param.texts json key)) (listFaults json key) :=
      orDefault_reports (Param.texts_reports json key) []
    refine (orDefault_reports (Param.flag_reports json _) false).bind fun _ _ => ?_
    refine (list "Namespaces").bind fun _ _ => ?_
    refine (list "Names").bind fun _ _ => ?_
    refine (list "UIDs").bind fun _ _ => ?_
    refine (list "Reasons").bind fun _ _ => ?_
    refine (list "Components").bind fun _ _ => ?_
    refine (kindsOf_reports json).bind fun _ _ => ?_
    refine (modeOf_reports json).bind fun _ _ => ?_
    refine (orDefault_reports (Param.text_reports json _) "").bind fun _ _ => ?_
    rw [← List.append_nil (spanFaults json)]
    exact (aroundSpanOf_reports json).bind fun _ _ => rfl
  · rw [if_neg isObject, if_neg isObject]
    rfl

-- Three faults, in the order of the checks and not of the members; only the first is reported.
example : faults (.object [("KindMatchMode", .string "any"), ("Kinds", .array [.object []]), ("Names", .null)]) =
    [.param (.wrongType "Names" .list), .param (.missingMandatory "Kind"), .modeUnknown "any"] := by
  decide

/-! ## Readings in a row -/

theorem message_ne_empty (problem : ConfigError) : problem.message ≠ "" := by
  -- Every message starts with a fixed text.
  have grows : ∀ {first : String} (rest : String), first ≠ "" → first ++ rest ≠ "" :=
    fun rest present empty => present (String.append_eq_empty_iff.1 empty).1
  cases problem with
  | notAnObject => decide
  | param problem =>
    cases problem with
    | wrongType key type => exact grows _ (grows _ (grows _ (by decide)))
    | wrongElement key => exact grows _ (grows _ (by decide))
    | missing key => exact grows _ (grows _ (by decide))
    | missingMandatory key => exact grows _ (grows _ (by decide))
  | kindNotAnObject => decide
  | kindEmpty => decide
  | modeUnknown text => exact grows _ (by decide)
  | spanUnreadable text => exact grows _ (by decide)
  | spanNegative text => exact grows _ (by decide)

/-- What is complained of after a reading: the first fault, or nothing. -/
def complaintOf (json : Json) : String := ((faults json).head?.map ConfigError.message).getD ""

/-- What is read into new settings, if the reading goes well. -/
def parseNew (json : Json) (level : Level) : Option Config :=
  let result := (parseInto json { value := {} } level).1
  if result.1 then some result.2.value else none

/-- The notes on refused settings, one for each, where errors are recorded. -/
def refusalNotes (level : Level) (problems : List ConfigError) : List Note :=
  if level ≤ .error then problems.map fun problem => ⟨0, .configRefused problem⟩ else []

theorem refusalNotes_append (level : Level) (first later : List ConfigError) :
    refusalNotes level (first ++ later) = refusalNotes level first ++ refusalNotes level later := by
  unfold refusalNotes
  by_cases noted : level ≤ .error <;> simp [noted]

theorem note_refused (problem : ConfigError) (level : Level) :
    (Logged.note (.configRefused problem) level).2 = { notes := refusalNotes level [problem] } := by
  rw [Logged.note_apply]
  by_cases noted : level ≤ .error <;> simp [refusalNotes, noted, Message.level]

theorem parseNew_isSome_iff (json : Json) (level : Level) :
    (parseNew json level).isSome = true ↔ faults json = [] := by
  have reports := decode_reports json
  unfold parseNew
  cases decoded : decode json with
  | ok config =>
    rw [decoded] at reports
    have clean : faults json = [] := reports
    simp [parseInto_ok decoded, clean]
  | error problem =>
    have found := reports.error_iff.1 decoded
    have faulty : faults json ≠ [] := by
      intro clean
      rw [clean] at found
      cases found
    simp [parseInto_error decoded, faulty]

/-- One reading: what is found replaces the settings, if anything is, and the complaint is about
    this reading in either case. -/
theorem parseInto_apply (json : Json) (old : Variable Config) (level : Level) :
    parseInto json old level =
      (((parseNew json level).isSome, ⟨(parseNew json level).getD old.value, complaintOf json⟩),
        { notes := refusalNotes level (faults json).head?.toList }) := by
  have reports := decode_reports json
  unfold parseNew complaintOf
  cases decoded : decode json with
  | ok config =>
    rw [decoded] at reports
    have clean : faults json = [] := reports
    simp [parseInto_ok decoded, clean, refusalNotes]
  | error problem =>
    have found := reports.error_iff.1 decoded
    simp [parseInto_error decoded, found, note_refused]

/-- Readings into one variable, one after the other, and which of them went well. -/
def parseEach : List Json → Variable Config → Logged (List Bool × Variable Config)
  | [], now => return ([], now)
  | json :: rest, now => do
    let (accepted, now) ← parseInto json now
    let (others, now) ← parseEach rest now
    return (accepted :: others, now)

/-- Readings in a row: the settings are those of the last one that went well, the complaint is about
    the last one, and the first fault of each is noted. -/
theorem parseEach_apply (jsons : List Json) (old : Variable Config) (level : Level) :
    parseEach jsons old level =
      ((jsons.map fun json => (parseNew json level).isSome,
        ⟨((jsons.filterMap fun json => parseNew json level).getLast?).getD old.value,
          (jsons.getLast?.map complaintOf).getD old.complaint⟩),
        { notes := refusalNotes level (jsons.filterMap fun json => (faults json).head?) }) := by
  induction jsons generalizing old with
  | nil => simp [parseEach, refusalNotes]
  | cons json rest ih =>
    have value : ((List.filterMap (fun json => parseNew json level) (json :: rest)).getLast?).getD old.value =
        ((rest.filterMap fun json => parseNew json level).getLast?).getD
          ((parseNew json level).getD old.value) := by
      cases new : parseNew json level <;> simp [new, List.getLast?_cons]
    have complaint : ((json :: rest).getLast?.map complaintOf).getD old.complaint =
        (rest.getLast?.map complaintOf).getD (complaintOf json) := by
      rw [List.getLast?_cons, Option.map_some, Option.getD_some, Option.getD_map]
    have problems : (json :: rest).filterMap (fun json => (faults json).head?) =
        (faults json).head?.toList ++ rest.filterMap fun json => (faults json).head? := by
      cases first : (faults json).head? <;> simp [first]
    rw [value, complaint, problems, refusalNotes_append, List.map_cons]
    simp only [parseEach, Logged.bind_apply, Logged.pure_apply, Journal.append_empty, parseInto_apply, ih]
    rfl

theorem text_configRefused (problem : ConfigError) :
    (Message.configRefused problem).text = "invalid filter config:" ++ problem.message := by
  have key : Line.keyText "invalid filter config" = "invalid filter config" := by decide
  have colon : "invalid filter config:" = "invalid filter config" ++ ":" := by decide
  rw [colon, ← key]
  rfl

theorem readAndBuild_refused {σ : Type} (lift : Leaf → σ) {json : Json} (channel : String)
    (chain : Variable (List σ)) (level : Level)
    (refused : (readAndBuild lift json channel chain level).1.1 = false) :
    readAndBuild lift json channel chain level =
      ((false, ⟨chain.value, complaintOf json⟩), { notes := refusalNotes level (faults json).head?.toList }) := by
  cases decoded : decode json with
  | ok config => simp [readAndBuild, parse, decoded] at refused
  | error problem =>
    have found := (decode_reports json).error_iff.1 decoded
    rw [readAndBuild_error lift decoded, note_refused, complaintOf, found]
    rfl

/-- Refused settings leave no trace but a complaint and a note. After readings in a row the settings
    are those that the last successful one finds by itself, the complaint is about the last one, and
    each refused one is noted once, with its first fault. A chain for which settings are refused is
    left as it is. -/
theorem parseEach_result (jsons : List Json) (old : Variable Config) (level : Level) :
    let after := parseEach jsons old level
    after.1.1 = (jsons.map fun json => (parseNew json level).isSome) ∧
    after.1.2.value = ((jsons.filterMap fun json => parseNew json level).getLast?).getD old.value ∧
    (∀ last, jsons.getLast? = some last →
      (after.1.2.complaint = "" ↔ (parseNew last level).isSome = true) ∧
      ∀ problem, (faults last).head? = some problem → after.1.2.complaint = problem.message) ∧
    (∀ json, (parseNew json level).isSome = true ↔ (faults json).head? = none) ∧
    after.2 = { notes := refusalNotes level (jsons.filterMap fun json => (faults json).head?) } ∧
    (∀ problem, (Message.configRefused problem).level = .error ∧
      (Message.configRefused problem).text = "invalid filter config:" ++ problem.message) ∧
    ∀ {σ : Type} (lift : Leaf → σ) (json : Json) (channel : String) (chain : Variable (List σ)),
      let build := readAndBuild lift json channel chain level
      build.1.1 = false → build.1.2.value = chain.value ∧ build.1.2.complaint = complaintOf json ∧
        build.2 = { notes := refusalNotes level (faults json).head?.toList } := by
  intro after
  have applied : after = _ := parseEach_apply jsons old level
  refine ⟨?_, ?_, ?_, ?_, ?_, fun problem => ⟨rfl, text_configRefused problem⟩, ?_⟩
  · rw [applied]
  · rw [applied]
  · intro last found
    have complaint : after.1.2.complaint = complaintOf last := by
      rw [applied, found]
      rfl
    rw [complaint, parseNew_isSome_iff]
    constructor
    · unfold complaintOf
      cases first : faults last with
      | nil => simp
      | cons problem others => simp [message_ne_empty]
    · intro problem first
      simp [complaintOf, first]
  · intro json
    rw [parseNew_isSome_iff, List.head?_eq_none_iff]
  · rw [applied]
  · intro σ lift json channel chain build refused
    have left : build = _ := readAndBuild_refused lift channel chain level refused
    rw [left]
    exact ⟨rfl, rfl, rfl⟩

end Config

end EventSieve
