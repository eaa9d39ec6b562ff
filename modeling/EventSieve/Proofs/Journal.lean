import EventSieve.Journal

/-!
Laws of journals and of computations that leave them. A journal is joined to a
later one piece by piece, so the result and the journal of a computation are
found step by step. What a chain encloses differs in the depth of its notes
alone, and neither a note nor a complaint has a result.
-/

namespace EventSieve

def Call.isLeaf (call : Call) : Bool :=
  match call.callee with
  | .leaf _ => true
  | .chain => false

namespace Journal

/-- The calls of leaves, in order. -/
def leafCalls (journal : Journal) : List Call := journal.calls.filter Call.isLeaf

attribute [ext] Journal

@[simp] theorem notes_append (first later : Journal) :
    (first ++ later).notes = first.notes ++ later.notes := rfl

@[simp] theorem complaints_append (first later : Journal) :
    (first ++ later).complaints = first.complaints ++ later.complaints := rfl

@[simp] theorem calls_append (first later : Journal) :
    (first ++ later).calls = first.calls ++ later.calls := rfl

@[simp] theorem append_empty (journal : Journal) : journal ++ {} = journal := by
  ext1 <;> simp

@[simp] theorem empty_append (journal : Journal) : {} ++ journal = journal := by
  ext1 <;> simp

theorem append_assoc (first second third : Journal) :
    first ++ second ++ third = first ++ (second ++ third) := by
  ext1 <;> simp

@[simp] theorem complaints_enclosed (journal : Journal) :
    journal.enclosed.complaints = journal.complaints := rfl

@[simp] theorem calls_enclosed (journal : Journal) : journal.enclosed.calls = journal.calls := rfl

end Journal

namespace Logged
variable {α β : Type}

@[simp] theorem pure_apply (a : α) (level : Level) : (pure a : Logged α) level = (a, {}) := rfl

@[simp] theorem bind_apply (run : Logged α) (next : α → Logged β) (level : Level) :
    (run >>= next) level =
      ((next (run level).1 level).1, (run level).2 ++ (next (run level).1 level).2) := rfl

instance : LawfulMonad Logged :=
  .mk' Logged
    (fun run => by
      funext level
      exact Prod.ext rfl (Journal.append_empty _))
    (fun a next => by
      funext level
      exact Prod.ext rfl (Journal.empty_append _))
    (fun run next last => by
      funext level
      exact Prod.ext rfl (Journal.append_assoc _ _ _))

@[simp] theorem map_apply (f : α → β) (run : Logged α) (level : Level) :
    (f <$> run) level = (f (run level).1, (run level).2) := by
  rw [← bind_pure_comp]
  exact Prod.ext rfl (Journal.append_empty _)

@[simp] theorem called_apply (callee : Callee) (given : List Event) (level : Level) :
    called callee given level = ((), { calls := [⟨callee, given⟩] }) := rfl

@[simp] theorem inside_apply (run : Logged α) (level : Level) :
    inside run level = ((run level).1, (run level).2.enclosed) := rfl

theorem note_apply (message : Message) (level : Level) :
    note message level =
      ((), if level ≤ message.level then { notes := [⟨0, message⟩] } else {}) := by
  show ((), (write .main message level).2 ++ {}) = _
  rw [Journal.append_empty]
  by_cases recorded : level ≤ message.level
  · simp only [write, if_pos recorded]
  · simp only [write, if_neg recorded]

@[simp] theorem complaints_note (message : Message) (level : Level) :
    (note message level).2.complaints = [] := by
  rw [note_apply]
  split <;> rfl

@[simp] theorem calls_note (message : Message) (level : Level) : (note message level).2.calls = [] := by
  rw [note_apply]
  split <;> rfl

/-- A complaint is written whenever its level is that of an error. -/
theorem complain_apply (channel : String) {message : Message} (grave : message.level = .error)
    (level : Level) :
    complain channel message level = ((), { complaints := [⟨channel, message⟩] }) := by
  have written : channelLevel ≤ message.level := by
    rw [grave]
    decide
  show ((), (write (.channel channel) message level).2 ++ {}) = _
  rw [Journal.append_empty]
  simp only [write, if_pos written]

end Logged

end EventSieve
