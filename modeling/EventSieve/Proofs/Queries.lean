import EventSieve.Proofs.Faults

/-!
Queries in a row on the same variables. What a query complains of and what it
writes are told from the member under its key alone (`Query.faults`,
`Query.given`), so nothing is left of the queries before it but the values that
they found. Each query keeps a contract (`Query.Settled`), and after a row of
them a variable holds the last value that was found for it.
-/

namespace EventSieve

def ParamError.key : ParamError → String
  | .wrongType key _ => key
  | .wrongElement key => key
  | .missing key => key
  | .missingMandatory key => key

/-- A message quotes the key that it is about. -/
theorem ParamError.key_in_message (problem : ParamError) :
    ∃ first last, problem.message = first ++ problem.key ++ last := by
  cases problem with
  | wrongType key type => exact ⟨"param ", " is not of type " ++ type.name, String.append_assoc⟩
  | wrongElement key =>
    show ∃ first last, _ = first ++ key ++ last
    exact ⟨"element in list param ", " is not of type string", rfl⟩
  | missing key =>
    show ∃ first last, _ = first ++ key ++ last
    exact ⟨"param ", " is missing", rfl⟩
  | missingMandatory key =>
    show ∃ first last, _ = first ++ key ++ last
    exact ⟨"mandatory string param ", " is missing", rfl⟩

theorem Json.texts_inj {values others : List String} (same : Json.texts values = Json.texts others) :
    values = others :=
  (List.map_inj_right fun _ _ => Json.string.inj).1 (Json.array.inj same)

namespace Param

/-- What the variable for a type holds, in JSON. -/
def Variables.held (now : Variables) : ParamType → Json
  | .bool => .bool now.flag
  | .string => .string now.text
  | .list => .texts now.texts

namespace Query

/-- The type that a query asks for. -/
def type : Query → ParamType
  | .flag => .bool
  | .text => .string
  | .mandatoryText => .string
  | .texts => .list
  | .list => .list

/-- The query goes well without the parameter. -/
def isOptional : Query → Bool
  | .flag => true
  | .text => true
  | .mandatoryText => false
  | .texts => true
  | .list => false

/-- The query writes into the variable for the type; the one for a list writes nowhere. -/
def Owns (query : Query) (type : ParamType) : Prop := query ≠ .list ∧ query.type = type

instance (query : Query) (type : ParamType) : Decidable (query.Owns type) :=
  inferInstanceAs (Decidable (_ ∧ _))

/-- All that is wrong with the member under a key, for a query. -/
def faults (query : Query) (config : Json) (key : String) : List ParamError :=
  match query with
  | .flag => typeFaults config key .bool
  | .text => typeFaults config key .string
  | .mandatoryText => absenceFaults config key ++ typeFaults config key .string
  | .texts => typeFaults config key .list ++ elementFaults config key
  | .list => if (config.member? key).isSome then typeFaults config key .list else [.missing key]

/-- What a query finds for the variable for a type. -/
def given (query : Query) (config : Json) (key : String) (type : ParamType) : Option Json :=
  if query.faults config key = [] ∧ query.Owns type then config.member? key else none

end Query

/-! ## One query -/

/-- Exact effect of a query with these faults: the first of them is complained of and nothing else is
    touched, or a variable gets what is given for it and nothing is complained of. -/
def Settles (faults : List ParamError) (given : ParamType → Option Json) (old : Variables)
    (outcome : Bool × Variables) : Prop :=
  match faults with
  | [] => outcome.1 = true ∧ outcome.2.complaint = "" ∧
      ∀ type, outcome.2.held type = (given type).getD (old.held type)
  | problem :: _ => outcome = (false, { old with complaint := problem.message })

/-- A lookup settles a query if it reports the faults of the query, finds nothing but the member under
    the key, and writes it where the query writes. -/
theorem settle_settles {α : Type} (query : Query) {config : Json} {key : String}
    {found : Except ParamError (Option α)} {toJson : α → Json} {write : α → Variables → Variables}
    (reports : Reports found (query.faults config key))
    (faithful : ∀ option, found = .ok option → config.member? key = option.map toJson)
    (complaint : ∀ value now, (write value now).complaint = now.complaint)
    (held : ∀ value now type,
      (write value now).held type = if query.Owns type then toJson value else now.held type)
    (old : Variables) :
    Settles (query.faults config key) (query.given config key) old (settle write old found) := by
  cases found with
  | error problem =>
    have first : (query.faults config key).head? = some problem := reports
    obtain ⟨rest, faults⟩ := List.head?_eq_some_iff.1 first
    rw [faults]
    rfl
  | ok option =>
    have clean : query.faults config key = [] := reports
    have given : ∀ type, query.given config key type = if query.Owns type then option.map toJson else none := by
      intro type
      simp only [Query.given, clean, true_and, faithful option rfl]
    rw [clean]
    cases option with
    | none =>
      refine ⟨rfl, rfl, fun type => ?_⟩
      rw [given, Option.map_none, ite_self]
      rfl
    | some value =>
      refine ⟨rfl, complaint _ _, fun type => ?_⟩
      show (write value _).held type = _
      rw [held, given]
      by_cases own : query.Owns type
      · rw [if_pos own, if_pos own]
        rfl
      · rw [if_neg own, if_neg own]
        rfl

theorem items_reports_list (config : Json) (key : String) :
    Reports ((items config key).map some) (Query.list.faults config key) := by
  refine Reports.map ?_ _
  unfold Query.faults
  by_cases present : (config.member? key).isSome = true
  · rw [if_pos present]
    exact items_reports present
  · have absent : config.member? key = none := by simpa using present
    simp [items, absent, Reports]

theorem Query.ask_settles (query : Query) (config : Json) (key : String) (old : Variables) :
    Settles (query.faults config key) (query.given config key) old (query.ask config key old) := by
  cases query with
  | flag =>
    refine settle_settles .flag (flag_reports config key) (fun _ => flag_eq_ok_iff.1) ?_ ?_ old
    · intro value now
      rfl
    · intro value now type
      cases type <;> rfl
  | text =>
    refine settle_settles .text (text_reports config key) (fun _ => text_eq_ok_iff.1) ?_ ?_ old
    · intro value now
      rfl
    · intro value now type
      cases type <;> rfl
  | mandatoryText =>
    have faithful : ∀ option, (Param.mandatoryText config key).map some = .ok option →
        config.member? key = option.map Json.string := by
      intro option reading
      obtain ⟨value, found, rfl⟩ := Except.map_eq_ok_iff.1 reading
      exact mandatoryText_eq_ok_iff.1 found
    refine settle_settles .mandatoryText ((mandatoryText_reports config key).map some) faithful ?_ ?_ old
    · intro value now
      rfl
    · intro value now type
      cases type <;> rfl
  | texts =>
    refine settle_settles .texts (texts_reports config key) (fun _ => texts_eq_ok_iff.1) ?_ ?_ old
    · intro value now
      rfl
    · intro value now type
      cases type <;> rfl
  | list =>
    have faithful : ∀ option, (Param.items config key).map some = .ok option →
        config.member? key = option.map Json.array := by
      intro option reading
      obtain ⟨value, found, rfl⟩ := Except.map_eq_ok_iff.1 reading
      exact items_eq_ok_iff.1 found
    refine settle_settles .list (items_reports_list config key) faithful ?_ ?_ old
    · intro value now
      rfl
    · intro value now type
      cases type <;> rfl

/-! ## The contract of a query -/

/-- What holds of the variables before and after a query under a key. A refused query, one without its
    parameter and one that only looks change nothing but the complaint, and no query changes a variable
    for another type. -/
structure Settled (config : Json) (query : Query) (key : String) (before : Variables) (accepted : Bool)
    (after : Variables) : Prop where
  accepted_iff : accepted = true ↔ query.faults config key = []
  complaint_eq_empty_iff : after.complaint = "" ↔ accepted = true
  quotes : accepted = false → ∃ first last, after.complaint = first ++ key ++ last
  written : accepted = true → query ≠ .list → ∀ value, config.member? key = some value →
    after.held query.type = value
  unchanged : accepted = false ∨ config.member? key = none ∨ query = .list →
    after = { before with complaint := after.complaint }
  others : ∀ type, type ≠ query.type → after.held type = before.held type
  absent : config.member? key = none → accepted = query.isOptional
  null : config.member? key = some .null →
    accepted = false ∧ after.complaint = (ParamError.wrongType key query.type).message

theorem Variables.eq_of_held {before after : Variables} (same : ∀ type, after.held type = before.held type) :
    after = { before with complaint := after.complaint } := by
  obtain ⟨flag, text, texts, complaint⟩ := after
  have sameFlag : flag = before.flag := Json.bool.inj (same .bool)
  have sameText : text = before.text := Json.string.inj (same .string)
  have sameTexts : texts = before.texts := Json.texts_inj (same .list)
  rw [sameFlag, sameText, sameTexts]

namespace Query
variable {config : Json} {key : String}

theorem faults_absent (absent : config.member? key = none) (query : Query) :
    query.faults config key = [] ↔ query.isOptional = true := by
  cases query <;> simp [faults, isOptional, typeFaults, absenceFaults, elementFaults, Json.itemsUnder, absent]

theorem faults_null (null : config.member? key = some .null) (query : Query) :
    query.faults config key = [.wrongType key query.type] := by
  cases query <;>
    simp [faults, type, typeFaults, absenceFaults, elementFaults, Json.itemsUnder, Json.paramType?, null]

theorem faults_key (query : Query) : ∀ problem ∈ query.faults config key, problem.key = key := by
  have ofType (type : ParamType) : ∀ problem ∈ typeFaults config key type, problem.key = key := by
    unfold typeFaults
    cases config.member? key with
    | none => exact List.forall_mem_nil _
    | some value => by_cases fits : value.paramType? = some type <;> simp [fits, ParamError.key]
  have absence : ∀ problem ∈ absenceFaults config key, problem.key = key := by
    unfold absenceFaults
    cases config.member? key <;> simp [ParamError.key]
  have elements : ∀ problem ∈ elementFaults config key, problem.key = key := by
    intro problem member
    obtain ⟨item, _, wrong⟩ := List.mem_flatMap.1 member
    by_cases text : item.paramType? = some .string
    · simp [text] at wrong
    · rw [if_neg text, List.mem_singleton] at wrong
      rw [wrong]
      rfl
  cases query with
  | flag => exact ofType .bool
  | text => exact ofType .string
  | mandatoryText => exact List.forall_mem_append.2 ⟨absence, ofType .string⟩
  | texts => exact List.forall_mem_append.2 ⟨ofType .list, elements⟩
  | list =>
    unfold faults
    by_cases present : (config.member? key).isSome = true
    · rw [if_pos present]
      exact ofType .list
    · rw [if_neg present]
      exact List.forall_mem_singleton.2 rfl

theorem message_ne_empty (problem : ParamError) : problem.message ≠ "" :=
  Config.message_ne_empty (.param problem)

section
variable (query : Query) (config : Json) (key : String) (old : Variables)

theorem ask_accepted : (query.ask config key old).1 = (query.faults config key).isEmpty := by
  have outcome := query.ask_settles config key old
  cases found : query.faults config key with
  | nil =>
    rw [found] at outcome
    exact outcome.1
  | cons problem rest =>
    rw [found] at outcome
    exact congrArg Prod.fst outcome

theorem ask_complaint : (query.ask config key old).2.complaint =
    ((query.faults config key).head?.map ParamError.message).getD "" := by
  have outcome := query.ask_settles config key old
  cases found : query.faults config key with
  | nil =>
    rw [found] at outcome
    exact outcome.2.1
  | cons problem rest =>
    rw [found] at outcome
    exact congrArg (fun outcome => outcome.2.complaint) outcome

theorem ask_held (type : ParamType) :
    (query.ask config key old).2.held type = (query.given config key type).getD (old.held type) := by
  have outcome := query.ask_settles config key old
  cases found : query.faults config key with
  | nil =>
    rw [found] at outcome
    exact outcome.2.2 type
  | cons problem rest =>
    rw [found] at outcome
    have refused : query.ask config key old = (false, { old with complaint := problem.message }) := outcome
    have nothing : query.given config key type = none := by simp [given, found]
    rw [refused, nothing]
    cases type <;> rfl

theorem ask_refused {query : Query} {old : Variables} (refused : (query.ask config key old).1 = false) :
    ∃ problem ∈ query.faults config key, (query.ask config key old).2.complaint = problem.message := by
  rw [ask_accepted] at refused
  obtain ⟨problem, rest, found⟩ := List.exists_cons_of_ne_nil (mt List.isEmpty_iff.2 (Bool.eq_false_iff.1 refused))
  refine ⟨problem, ?_, ?_⟩
  · rw [found]
    exact List.mem_cons_self
  · rw [ask_complaint, found]
    rfl

/-- Where nothing is given the variables stay as they are. -/
theorem ask_unchanged {query : Query}
    (idle : (query.ask config key old).1 = false ∨ config.member? key = none ∨ query = .list) :
    (query.ask config key old).2 = { old with complaint := (query.ask config key old).2.complaint } := by
  refine Variables.eq_of_held fun type => ?_
  have nothing : query.given config key type = none := by
    unfold given
    split
    · rename_i owned
      rcases idle with refused | absent | looking
      · rw [ask_accepted, owned.1] at refused
        cases refused
      · exact absent
      · exact absurd looking owned.2.1
    · rfl
  rw [ask_held, nothing]
  rfl

theorem ask_settled : Settled config query key old (query.ask config key old).1 (query.ask config key old).2 where
  accepted_iff := by
    rw [ask_accepted, List.isEmpty_iff]
  complaint_eq_empty_iff := by
    rw [ask_accepted, ask_complaint]
    cases query.faults config key with
    | nil => exact iff_of_true rfl rfl
    | cons problem rest => exact iff_of_false (message_ne_empty problem) Bool.false_ne_true
  quotes := by
    intro refused
    obtain ⟨problem, known, complaint⟩ := ask_refused config key refused
    rw [complaint, ← query.faults_key problem known]
    exact problem.key_in_message
  written := by
    intro accepted writes value present
    rw [ask_accepted, List.isEmpty_iff] at accepted
    rw [ask_held, given, if_pos ⟨accepted, writes, rfl⟩, present]
    rfl
  unchanged := ask_unchanged config key old
  others := by
    intro type other
    rw [ask_held, given, if_neg fun owned => other owned.2.2.symm]
    rfl
  absent := by
    intro absent
    rw [ask_accepted, Bool.eq_iff_iff, List.isEmpty_iff, faults_absent absent]
  null := by
    intro null
    rw [ask_accepted, ask_complaint, faults_null null]
    exact ⟨rfl, rfl⟩

end

/-- With the parameter there, it does not matter whether it has to be. -/
theorem ask_mandatoryText (present : (config.member? key).isSome = true) (old : Variables) :
    Query.mandatoryText.ask config key old = Query.text.ask config key old := by
  simp only [ask, Param.mandatoryText, Param.text]
  cases found : config.member? key with
  | none => simp [found] at present
  | some value => cases value <;> rfl

theorem ask_list_accepted_iff (old : Variables) :
    (Query.list.ask config key old).1 = true ↔ ∃ items, config.member? key = some (.array items) := by
  rw [ask_accepted, List.isEmpty_iff, faults, typeFaults]
  cases config.member? key with
  | none => simp
  | some value => cases value <;> simp [Json.paramType?]

end Query

/-! ## Queries in a row -/

/-- Queries in a row, each with its answer and the variables as it leaves them. -/
def askEach (config : Json) : List (Query × String) → Variables → List (Bool × Variables)
  | [], _ => []
  | (query, key) :: rest, now =>
    let outcome := query.ask config key now
    outcome :: askEach config rest outcome.2

/-- Each query of a row keeps the contract, on the variables that the one before it left. -/
inductive SettledEach (config : Json) : Variables → List (Query × String) → List (Bool × Variables) → Prop
  | nil {now : Variables} : SettledEach config now [] []
  | cons {now after : Variables} {query : Query} {key : String} {accepted : Bool} {rest : List (Query × String)}
      {outcomes : List (Bool × Variables)} (here : Settled config query key now accepted after)
      (further : SettledEach config after rest outcomes) :
      SettledEach config now ((query, key) :: rest) ((accepted, after) :: outcomes)

theorem askEach_settledEach (config : Json) (calls : List (Query × String)) (old : Variables) :
    SettledEach config old calls (askEach config calls old) := by
  induction calls generalizing old with
  | nil => exact .nil
  | cons call rest ih => exact .cons (call.1.ask_settled config call.2 old) (ih _)

/-- The variables as a row of queries leaves them. -/
def leftBy (outcomes : List (Bool × Variables)) (old : Variables) : Variables :=
  (outcomes.getLast?.map Prod.snd).getD old

/-- A variable holds the last value that was given for it. -/
theorem held_leftBy (config : Json) (calls : List (Query × String)) (old : Variables) (type : ParamType) :
    (leftBy (askEach config calls old) old).held type =
      ((calls.filterMap fun call => call.1.given config call.2 type).getLast?).getD (old.held type) := by
  induction calls generalizing old with
  | nil => rfl
  | cons call rest ih =>
    have left : leftBy (askEach config (call :: rest) old) old =
        leftBy (askEach config rest (call.1.ask config call.2 old).2) (call.1.ask config call.2 old).2 := by
      simp [leftBy, askEach, List.getLast?_cons, Option.getD_map]
    rw [left, ih, Query.ask_held]
    cases found : call.1.given config call.2 type <;> simp [found, List.getLast?_cons]

/-- Queries in a row on variables with any contents. Each keeps the contract on what the one before it
    left, and a variable holds the last value that was given for it in the row. The answer and the
    complaint come from the member under the key and not from the variables. The query for a mandatory
    text does as that for an optional one wherever there is a member, and the query for a list asks for
    one and nothing more. -/
theorem askEach_settled (config : Json) (calls : List (Query × String)) (old : Variables) :
    let outcomes := askEach config calls old
    SettledEach config old calls outcomes ∧
    (∀ type, (leftBy outcomes old).held type =
      ((calls.filterMap fun call => call.1.given config call.2 type).getLast?).getD (old.held type)) ∧
    ∀ (key : String) (now : Variables),
      (∀ (query : Query) (other : Variables), (query.ask config key now).1 = (query.ask config key other).1 ∧
        (query.ask config key now).2.complaint = (query.ask config key other).2.complaint) ∧
      ((config.member? key).isSome = true →
        Query.mandatoryText.ask config key now = Query.text.ask config key now) ∧
      ((Query.list.ask config key now).1 = true ↔ ∃ items, config.member? key = some (.array items)) := by
  intro outcomes
  refine ⟨askEach_settledEach config calls old, held_leftBy config calls old, fun key now => ⟨?_, ?_, ?_⟩⟩
  · intro query other
    simp only [Query.ask_accepted, Query.ask_complaint, and_self]
  · intro present
    exact Query.ask_mandatoryText present now
  · exact Query.ask_list_accepted_iff now

/-- A list with a wrong element after a good one, a text that is there and is asked for, a null, a key
    that goes on after a member's, and the list again. -/
theorem askEach_settled_mixed :
    let config : Json := .object
      [("Names", .array [.string "a", .null]), ("Around", .string "08:00"), ("Mode", .null)]
    let calls : List (Query × String) :=
      [(.texts, "Names"), (.mandatoryText, "Around"), (.text, "Mode"), (.mandatoryText, "Around\x00"), (.list, "Names")]
    let old : Variables := ⟨true, "initial", ["initial"], "earlier"⟩
    let outcomes := askEach config calls old
    (config.member? "Around").isSome = true ∧
    Query.mandatoryText.ask config "Around" old = Query.text.ask config "Around" old ∧
    outcomes.map (fun outcome => (outcome.1, outcome.2.texts, outcome.2.complaint)) =
      [(false, ["initial"], "element in list param Names is not of type string"), (true, ["initial"], ""),
        (false, ["initial"], "param Mode is not of type string"),
        (false, ["initial"], "mandatory string param Around\x00 is missing"), (true, ["initial"], "")] ∧
    (leftBy outcomes old).held .string = .string "08:00" ∧ (leftBy outcomes old).held .list = .texts ["initial"] := by
  intro config calls old outcomes
  obtain ⟨_, held, each⟩ := askEach_settled config calls old
  obtain ⟨_, mandatory, _⟩ := each "Around" old
  have present : (config.member? "Around").isSome = true := by decide
  exact ⟨present, mandatory present, by decide +kernel, (held .string).trans rfl, (held .list).trans rfl⟩

end Param

end EventSieve
