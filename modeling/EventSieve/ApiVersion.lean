import EventSieve.Text
import EventSieve.Variable

/-!
API versions of objects: `version` alone for the core group, whose name is
empty, or `group/version`.
-/

namespace EventSieve

structure ApiVersion where
  group : String := ""
  version : String := ""
  deriving DecidableEq, Repr

namespace ApiVersion

inductive ReadError
  | manySlashes (text : String)
  deriving DecidableEq, Repr

def ReadError.message : ReadError → String
  | .manySlashes text => "unexpected GroupVersion string: " ++ text

/-- Exact parts of a text with at most one slash. -/
def read (text : String) : Except ReadError ApiVersion :=
  match Text.split '/' text with
  | [version] => .ok { version }
  | [group, version] => .ok { group, version }
  | _ => .error (.manySlashes text)

/-- Reads into a variable, which is emptied first; an earlier complaint outlives a success. -/
def readInto (text : String) (old : Variable ApiVersion) : Bool × Variable ApiVersion :=
  Variable.receive { old with value := ({} : ApiVersion) } ReadError.message (read text)

end ApiVersion

end EventSieve
