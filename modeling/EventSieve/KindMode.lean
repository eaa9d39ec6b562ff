/-!
The two ways of weighing inclusions against exclusions of kinds, and their names.
-/

namespace EventSieve

/-- How the rules of a kind filter are weighed. -/
inductive KindMode
  | legacy
  | exclusionFirst
  deriving DecidableEq, Repr

namespace KindMode

def name : KindMode → String
  | .legacy => "legacy"
  | .exclusionFirst => "exclusion_first"

/-- The mode with exactly this name. -/
def ofName? (text : String) : Option KindMode :=
  if text = "legacy" then some .legacy
  else if text = "exclusion_first" then some .exclusionFirst
  else none

/-- The mode of this name in place of an old one, which stays when there is none. -/
def replacedBy (old : KindMode) (text : String) : Bool × KindMode :=
  match ofName? text with
  | some mode => (true, mode)
  | none => (false, old)

def ofNumber? (number : Int) : Option KindMode :=
  if number = 0 then some .legacy
  else if number = 1 then some .exclusionFirst
  else none

/-- The name of the mode with this number, or a word for there being none. -/
def nameOfNumber (number : Int) : String := ((ofNumber? number).map name).getD "unknown"

end KindMode

end EventSieve
