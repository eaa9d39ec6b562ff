import EventSieve.Event

/-!
The texts of an event that can be held against a set of accepted texts.
-/

namespace EventSieve

/-- A text of an event. -/
inductive Field
  | ns
  | name
  | uid
  | reason
  | component
  deriving DecidableEq, Repr

namespace Field

/-- Every field, in the order in which filters on them stand in a chain. -/
def all : List Field := [.ns, .name, .uid, .reason, .component]

def text (field : Field) (event : Event) : String :=
  match field with
  | .ns => event.subject.ns
  | .name => event.subject.name
  | .uid => event.subject.uid
  | .reason => event.reason
  | .component => event.component

def filterName : Field → String
  | .ns => "filter_namespace"
  | .name => "filter_name"
  | .uid => "filter_uid"
  | .reason => "filter_reason"
  | .component => "filter_component"

/-- The word for the accepted texts of this field in descriptions. -/
def plural : Field → String
  | .ns => "namespaces"
  | .name => "names"
  | .uid => "uids"
  | .reason => "reasons"
  | .component => "components"

end Field

end EventSieve
