import EventSieve.Field
import EventSieve.KindMode
import EventSieve.RuleTable
import EventSieve.Text
import EventSieve.Time.Span

/-!
Settings of a chain of filters, and their description in one line. A setting
that is empty puts no condition and is not described.
-/

namespace EventSieve

/-- What a chain of filters shall let through. -/
structure Config where
  warningsOnly : Bool := false
  namespaces : List String := []
  names : List String := []
  uids : List String := []
  reasons : List String := []
  components : List String := []
  kinds : RuleTable := {}
  mode : KindMode := .exclusionFirst
  around : String := ""
  aroundSpan : Span := .quarterHour
  deriving DecidableEq, Repr

namespace Config

/-- The accepted texts of a field; none at all puts no condition on it. -/
def accepted (config : Config) : Field → List String
  | .ns => config.namespaces
  | .name => config.names
  | .uid => config.uids
  | .reason => config.reasons
  | .component => config.components

/-- Texts in brackets with commas between them. -/
def bracketed (texts : List String) : String := "[" ++ Text.joined "," texts ++ "]"

def fieldSegment (config : Config) (field : Field) : List String :=
  if config.accepted field = [] then [] else [field.plural ++ "=" ++ bracketed (config.accepted field)]

def kindSegments (config : Config) : List String :=
  if config.kinds.entries = [] then []
  else ["kinds=" ++ bracketed (config.kinds.keys.map QualifiedKind.text), "kind_match_mode=" ++ config.mode.name]

def windowSegments (config : Config) : List String :=
  if config.around = "" then []
  else ["around=" ++ config.around, "around_duration=" ++ config.aroundSpan.text]

/-- Exact description: the settings that put a condition, in the order of the filters for them. -/
def description (config : Config) : String :=
  Text.joined ", " <|
    ("warnings_only=" ++ if config.warningsOnly then "true" else "false") ::
      Field.all.flatMap config.fieldSegment ++ config.kindSegments ++ config.windowSegments

end Config

end EventSieve
