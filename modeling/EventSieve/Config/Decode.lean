import EventSieve.Config
import EventSieve.Param

/-!
Reading the settings of a chain from a JSON object. Members are checked in a
fixed order and the first one that fails is reported; members with other keys
do not count.
-/

namespace EventSieve

inductive ConfigError
  | notAnObject
  | param (problem : ParamError)
  | kindNotAnObject
  | kindEmpty
  | modeUnknown (text : String)
  | spanUnreadable (text : String)
  | spanNegative (text : String)
  deriving DecidableEq, Repr

def ConfigError.message : ConfigError → String
  | .notAnObject => "filter config is not of type object"
  | .param problem => problem.message
  | .kindNotAnObject => "element in list param Kinds is not of type object"
  | .kindEmpty => "param Kind in Kinds is empty"
  | .modeUnknown text => "param KindMatchMode is not valid: " ++ text
  | .spanUnreadable text => "param AroundDuration is not a valid duration: " ++ text
  | .spanNegative text => "param AroundDuration must not be negative: " ++ text

namespace Config

/-- A parameter of the configuration, with the value that it has when absent. -/
def orDefault {α : Type} (standard : α) (found : Except ParamError (Option α)) : Except ConfigError α :=
  match found with
  | .ok value => .ok (value.getD standard)
  | .error problem => .error (.param problem)

/-- The key that an element of `Kinds` stands for: its kind, and its group or the core group. -/
def decodeKind (item : Json) : Except ConfigError QualifiedKind :=
  if item.isObject then
    match Param.mandatoryText item "Kind" with
    | .error problem => .error (.param problem)
    | .ok kind =>
      if kind = "" then .error .kindEmpty
      else (orDefault "" (Param.text item "Group")).map fun group => ⟨group, kind⟩
  else .error .kindNotAnObject

/-- The table of the elements of `Kinds`, which are checked in order. -/
def decodeKinds : List Json → RuleTable → Except ConfigError RuleTable
  | [], kinds => .ok kinds
  | item :: rest, kinds =>
    match decodeKind item with
    | .ok key => decodeKinds rest (kinds.insert key true)
    | .error problem => .error problem

/-- The table under `Kinds`, empty when there is no such member. -/
def kindsOf (json : Json) : Except ConfigError RuleTable :=
  if (json.member? "Kinds").isSome then
    match Param.items json "Kinds" with
    | .ok items => decodeKinds items {}
    | .error problem => .error (.param problem)
  else .ok {}

/-- The mode under `KindMatchMode`; the empty text stands for none. -/
def modeOf (json : Json) : Except ConfigError KindMode :=
  match orDefault "" (Param.text json "KindMatchMode") with
  | .error problem => .error problem
  | .ok text =>
    if text = "" then .ok .exclusionFirst
    else match KindMode.ofName? text with
      | some mode => .ok mode
      | none => .error (.modeUnknown text)

/-- The span under `AroundDuration`; the empty text stands for none. -/
def aroundSpanOf (json : Json) : Except ConfigError Span :=
  match orDefault "" (Param.text json "AroundDuration") with
  | .error problem => .error problem
  | .ok text =>
    if text = "" then .ok .quarterHour
    else match Span.read text with
      | none => .error (.spanUnreadable text)
      | some span => if span.isNegative then .error (.spanNegative text) else .ok span

/-- Exact settings of a JSON object. -/
def decode (json : Json) : Except ConfigError Config :=
  if json.isObject then do
    let warningsOnly ← orDefault false (Param.flag json "WarningsOnly")
    let namespaces ← orDefault [] (Param.texts json "Namespaces")
    let names ← orDefault [] (Param.texts json "Names")
    let uids ← orDefault [] (Param.texts json "UIDs")
    let reasons ← orDefault [] (Param.texts json "Reasons")
    let components ← orDefault [] (Param.texts json "Components")
    let kinds ← kindsOf json
    let mode ← modeOf json
    let around ← orDefault "" (Param.text json "Around")
    let aroundSpan ← aroundSpanOf json
    return { warningsOnly, namespaces, names, uids, reasons, components, kinds, mode, around, aroundSpan }
  else .error .notAnObject

end Config

end EventSieve
