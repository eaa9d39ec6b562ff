/-!
Conditions on a text: none, to stand in a list of allowed texts, or any other
test. An empty list of allowed texts puts no condition either.
-/

namespace EventSieve

/-- Distinct allowed texts. -/
structure AllowList where
  values : List String := []
  deriving DecidableEq, Repr

namespace AllowList

/-- The list with one more text, unless it is there already. -/
def insert (allowed : AllowList) (value : String) : AllowList :=
  if value ∈ allowed.values then allowed else ⟨allowed.values ++ [value]⟩

/-- The texts of a list, each once. -/
def ofList (values : List String) : AllowList := values.foldl insert {}

def size (allowed : AllowList) : Nat := allowed.values.length

/-- The list puts no condition on a text. -/
def acceptsAll (allowed : AllowList) : Bool := allowed.values.isEmpty

/-- Exact acceptance: every text when the list is empty, otherwise its own. -/
def accepts (allowed : AllowList) (text : String) : Bool :=
  allowed.acceptsAll || allowed.values.contains text

end AllowList

inductive Condition
  | anything
  | oneOf (allowed : AllowList)
  | test (holds : String → Bool)

/-- The text meets the condition. -/
def Condition.accepts (condition : Condition) (text : String) : Bool :=
  match condition with
  | .anything => true
  | .oneOf allowed => allowed.accepts text
  | .test holds => holds text

end EventSieve
