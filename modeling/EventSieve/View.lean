/-!
Views of a run of places in a storage that belongs to someone else. A view holds
no values: what is read through it is what the storage holds at that moment.
-/

namespace EventSieve

/-- As many places of a storage as the size says, from a start on. -/
structure View where
  start : Nat := 0
  size : Nat := 0
  deriving DecidableEq, Repr

namespace View
variable {α : Type}

def whole (storage : List α) : View := ⟨0, storage.length⟩

def isEmpty (view : View) : Bool := view.size = 0

/-- The value at a place of the view. -/
def get? (view : View) (storage : List α) (i : Nat) : Option α :=
  if i < view.size then storage[view.start + i]? else none

def front? (view : View) (storage : List α) : Option α := view.get? storage 0

def back? (view : View) (storage : List α) : Option α := view.get? storage (view.size - 1)

/-- The values read place by place. -/
def indexed (view : View) (storage : List α) : List α :=
  (List.range view.size).filterMap (view.get? storage)

/-- The values from a cursor on, for as many steps as are left before the end. -/
def walkFrom (storage : List α) : Nat → Nat → List α
  | 0, _ => []
  | left + 1, cursor => storage[cursor]?.toList ++ walkFrom storage left (cursor + 1)

/-- The values met by a cursor that moves from the start to the end. -/
def walk (view : View) (storage : List α) : List α := walkFrom storage view.size view.start

/-- A list of the values of its own, which later changes of the storage do not reach. -/
def toList (view : View) (storage : List α) : List α :=
  (storage.drop view.start).take view.size

end View

end EventSieve
