import EventSieve.Time.Stamp

/-!
Recorded events: what happened, how grave it was, to which object, who reported
it and when it was last seen.
-/

namespace EventSieve

inductive Severity
  | normal
  | warning
  deriving DecidableEq, Repr

/-- The object that an event is about, `ns` being the namespace it lies in. -/
structure Subject where
  ns : String := ""
  name : String := ""
  uid : String := ""
  kind : String := ""
  apiVersion : String := ""
  deriving DecidableEq, Repr

/-- An event, with its place in the collection it was recorded in. -/
structure Event where
  place : Nat
  severity : Severity := .normal
  subject : Subject := {}
  reason : String := ""
  component : String := ""
  lastSeen : Stamp := ⟨0, 0⟩
  deriving DecidableEq, Repr

end EventSieve
