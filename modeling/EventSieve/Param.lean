import EventSieve.Json

/-!
Parameters of a configuration, each looked up under its key with the type that
it must have. A member that is present and null has the wrong type. `Query.ask`
writes what it finds into variables that outlive it: each one first clears the
complaint, and changes its own variable only when it finds a value.
-/

namespace EventSieve

inductive ParamType
  | bool
  | string
  | list
  deriving DecidableEq, Repr

def ParamType.name : ParamType → String
  | .bool => "bool"
  | .string => "string"
  | .list => "list"

inductive ParamError
  | wrongType (key : String) (type : ParamType)
  | wrongElement (key : String)
  | missing (key : String)
  | missingMandatory (key : String)
  deriving DecidableEq, Repr

def ParamError.message : ParamError → String
  | .wrongType key type => "param " ++ key ++ " is not of type " ++ type.name
  | .wrongElement key => "element in list param " ++ key ++ " is not of type string"
  | .missing key => "param " ++ key ++ " is missing"
  | .missingMandatory key => "mandatory string param " ++ key ++ " is missing"

namespace Param

/-- A flag that may be absent. -/
def flag (config : Json) (key : String) : Except ParamError (Option Bool) :=
  match config.member? key with
  | none => .ok none
  | some (.bool value) => .ok (some value)
  | some _ => .error (.wrongType key .bool)

/-- A text that may be absent. -/
def text (config : Json) (key : String) : Except ParamError (Option String) :=
  match config.member? key with
  | none => .ok none
  | some (.string value) => .ok (some value)
  | some _ => .error (.wrongType key .string)

/-- A text that may not be absent. -/
def mandatoryText (config : Json) (key : String) : Except ParamError String :=
  match config.member? key with
  | none => .error (.missingMandatory key)
  | some (.string value) => .ok value
  | some _ => .error (.wrongType key .string)

/-- The texts of a list, or nothing when one element is no text. -/
def allTexts : List Json → Option (List String)
  | [] => some []
  | .string value :: rest => (allTexts rest).map (value :: ·)
  | _ :: _ => none

/-- A list of texts that may be absent. -/
def texts (config : Json) (key : String) : Except ParamError (Option (List String)) :=
  match config.member? key with
  | none => .ok none
  | some (.array items) =>
    match allTexts items with
    | some values => .ok (some values)
    | none => .error (.wrongElement key)
  | some _ => .error (.wrongType key .list)

/-- The elements of a list that may not be absent, whatever they are. -/
def items (config : Json) (key : String) : Except ParamError (List Json) :=
  match config.member? key with
  | none => .error (.missing key)
  | some (.array items) => .ok items
  | some _ => .error (.wrongType key .list)

/-! ## Queries on variables -/

/-- Variables that queries write into. -/
structure Variables where
  flag : Bool := false
  text : String := ""
  texts : List String := []
  complaint : String := ""
  deriving DecidableEq, Repr

inductive Query
  | flag
  | text
  | mandatoryText
  | texts
  | list
  deriving DecidableEq, Repr

/-- Exact effect of a lookup: the complaint is the lookup's own or none, and only a value that was
    found is written. The flag says whether the lookup went well. -/
def settle {α : Type} (write : α → Variables → Variables) (old : Variables) :
    Except ParamError (Option α) → Bool × Variables
  | .ok (some value) => (true, write value { old with complaint := "" })
  | .ok none => (true, { old with complaint := "" })
  | .error problem => (false, { old with complaint := problem.message })

/-- Looks a parameter up for the variables. -/
def Query.ask (query : Query) (config : Json) (key : String) (old : Variables) : Bool × Variables :=
  match query with
  | .flag => settle (fun flag now => { now with flag }) old (Param.flag config key)
  | .text => settle (fun text now => { now with text }) old (Param.text config key)
  | .mandatoryText =>
    settle (fun text now => { now with text }) old ((Param.mandatoryText config key).map some)
  | .texts => settle (fun texts now => { now with texts }) old (Param.texts config key)
  | .list => settle (fun _ now => now) old ((Param.items config key).map some)

end Param

end EventSieve
