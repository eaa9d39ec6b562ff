/-!
JSON values, as configurations are written in them.
-/

namespace EventSieve

/-- A JSON value. A number is `mantissa * 10 ^ -exponent`; an object lists its members. -/
inductive Json
  | null
  | bool (value : Bool)
  | number (mantissa : Int) (exponent : Nat)
  | string (value : String)
  | array (items : List Json)
  | object (members : List (String × Json))
  deriving Repr, Inhabited

namespace Json

def isObject : Json → Bool
  | .object _ => true
  | _ => false

/-- The value of the first member with exactly this key; only objects have members. -/
def member? (json : Json) (key : String) : Option Json :=
  match json with
  | .object members => (members.find? fun member => member.1 = key).map Prod.snd
  | _ => none

def string? : Json → Option String
  | .string value => some value
  | _ => none

end Json

end EventSieve
