/-!
Variables that readings are written into, one after the other. Beside the value
stands the text of the last complaint, which may be older than the value.
-/

namespace EventSieve

/-- A value and the last complaint about a text that was read for it. -/
structure Variable (α : Type) where
  value : α
  complaint : String := ""
  deriving DecidableEq, Repr

namespace Variable
variable {α ε : Type}

/-- Exact outcome of a reading: a success replaces the value and leaves the complaint, a failure
    replaces the complaint and leaves the value. The flag says which of the two it was. -/
def receive (old : Variable α) (message : ε → String) : Except ε α → Bool × Variable α
  | .ok value => (true, { old with value })
  | .error problem => (false, { old with complaint := message problem })

/-- The variable with no complaint. -/
def cleared (old : Variable α) : Variable α := { old with complaint := "" }

end Variable

end EventSieve
