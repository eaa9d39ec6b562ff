import EventSieve.Leaf
import EventSieve.Message

/-!
What a computation leaves behind besides its result: notes on the main log,
complaints on other channels, and which filters were called on which events. A
message is written only where its level is at least that of the log, and no
result depends on what was written.
-/

namespace EventSieve

/-- A message on the main log, and how many chains enclose the one that wrote it. -/
structure Note where
  depth : Nat
  message : Message
  deriving DecidableEq, Repr

/-- A message on another channel than the main log. -/
structure Complaint where
  channel : String
  message : Message
  deriving DecidableEq, Repr

inductive Callee
  | leaf (stage : Leaf)
  | chain

/-- A filter or chain was called on these events. -/
structure Call where
  callee : Callee
  given : List Event

/-- All that is left behind, each sort in the order in which it came about. -/
structure Journal where
  notes : List Note := []
  complaints : List Complaint := []
  calls : List Call := []

namespace Journal

instance : Append Journal where
  append first later :=
    ⟨first.notes ++ later.notes, first.complaints ++ later.complaints, first.calls ++ later.calls⟩

/-- The journal of something that a chain encloses. -/
def enclosed (journal : Journal) : Journal :=
  { journal with notes := journal.notes.map fun note => { note with depth := note.depth + 1 } }

end Journal

/-- A computation that reads the level of the main log and leaves a journal. -/
def Logged (α : Type) : Type := Level → α × Journal

namespace Logged
variable {α : Type}

instance : Monad Logged where
  pure a := fun _ => (a, {})
  bind run next := fun level =>
    let (a, first) := run level
    let (b, later) := next a level
    (b, first ++ later)

inductive Target
  | main
  | channel (name : String)
  | nowhere
  deriving DecidableEq, Repr

/-- The level of every channel but the main log. -/
def channelLevel : Level := .info

/-- Writes a message if its level is at least that of the target, and says whether it did. -/
def write (target : Target) (message : Message) : Logged Bool := fun level =>
  match target with
  | .main =>
    if level ≤ message.level then (true, { notes := [⟨0, message⟩] }) else (false, {})
  | .channel name =>
    if channelLevel ≤ message.level then (true, { complaints := [⟨name, message⟩] }) else (false, {})
  | .nowhere => (false, {})

/-- Writes a message to the main log. -/
def note (message : Message) : Logged Unit := do
  let _ ← write .main message
  return ()

/-- Writes a message to another channel. -/
def complain (channel : String) (message : Message) : Logged Unit := do
  let _ ← write (.channel channel) message
  return ()

/-- Leaves behind that something was called. -/
def called (callee : Callee) (given : List Event) : Logged Unit := fun _ =>
  ((), { calls := [⟨callee, given⟩] })

/-- The computation as part of a chain. -/
def inside (run : Logged α) : Logged α := fun level =>
  let (a, journal) := run level
  (a, journal.enclosed)

end Logged

end EventSieve
