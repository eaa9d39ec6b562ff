import EventSieve.AllowList
import EventSieve.Field
import EventSieve.KindFilter
import EventSieve.WindowFilter

/-!
Filters that are no chains: on severity, on a field, on the kind, on a window of
time, or any other function from events to events.
-/

namespace EventSieve

/-- A filter without filters inside. One of a caller's own has a name, a tag that tells it from
    others, and no result when it could not run. -/
inductive Leaf
  | warnings
  | field (which : Field) (condition : Condition)
  | kind (filter : KindFilter)
  | window (filter : WindowFilter)
  | custom (ownName : String) (tag : Nat) (keep : List Event → Option (List Event))

def Leaf.name : Leaf → String
  | .warnings => "filter_warning"
  | .field which _ => which.filterName
  | .kind _ => "filter_kind"
  | .window _ => "filter_around"
  | .custom ownName _ _ => ownName

end EventSieve
