import EventSieve.Proofs.Chain

/-!
What a run comes to, whatever chains enclose it: its result, its complaints and
its calls of leaves. The outcome of a stage and of what follows it are joined by
`follow`, which ends where there is no result, and a turn is just that wherever
there are events. Stages in a row therefore come to what the first of them and
then the others come to.
-/

namespace EventSieve

/-- The part of a journal that is independent of nesting: complaints, and calls of leaves. -/
def Journal.work (journal : Journal) : Journal :=
  { complaints := journal.complaints, calls := journal.leafCalls }

@[simp] theorem Journal.work_append (first later : Journal) :
    (first ++ later).work = first.work ++ later.work := by
  ext1
  · rfl
  · rfl
  · exact List.filter_append _ _

@[simp] theorem Journal.work_enclosed (journal : Journal) : journal.enclosed.work = journal.work := rfl

@[simp] theorem Logged.work_note (message : Message) (level : Level) :
    (Logged.note message level).2.work = {} := by
  simp [Journal.work, Journal.leafCalls]

/-- What a run comes to: its result and the part of its journal that is independent of nesting. -/
abbrev Outcome := Option (List Event) × Journal

/-- The outcome of a run on events at a level of the log. -/
def Run.outcome (run : Run) (level : Level) (events : List Event) : Outcome :=
  ((run events level).1, (run events level).2.work)

namespace Outcome

/-- An outcome and what is made of its result, if there is one. -/
def follow (first : Outcome) (next : List Event → Outcome) : Outcome :=
  match first.1 with
  | none => (none, first.2)
  | some kept => ((next kept).1, first.2 ++ (next kept).2)

/-- The outcome of keeping events and doing nothing. -/
def keep (events : List Event) : Outcome := (some events, {})

theorem follow_result (first : Outcome) (next : List Event → Outcome) :
    (first.follow next).1 = first.1.bind fun kept => (next kept).1 := by
  obtain ⟨result, journal⟩ := first
  cases result <;> rfl

theorem follow_keep (first : Outcome) : first.follow keep = first := by
  obtain ⟨result, journal⟩ := first
  cases result with
  | none => rfl
  | some kept => exact Prod.ext rfl (Journal.append_empty _)

theorem keep_follow (events : List Event) (next : List Event → Outcome) :
    (keep events).follow next = next events :=
  Prod.ext rfl (Journal.empty_append _)

theorem follow_assoc (first : Outcome) (next last : List Event → Outcome) :
    (first.follow next).follow last = first.follow fun kept => (next kept).follow last := by
  obtain ⟨result, journal⟩ := first
  cases result with
  | none => rfl
  | some kept =>
    simp only [follow]
    cases (next kept).1 with
    | none => rfl
    | some more => exact Prod.ext rfl (Journal.append_assoc _ _ _)

end Outcome

namespace Chain
variable {σ : Type} (name : σ → String) (run : σ → Run)

/-- The outcome of a turn: keeping nothing when nothing is left, else the stage and what follows. -/
theorem turn_outcome (label : String) (position left : Nat) (stage further : Run) (level : Level)
    (events : List Event) :
    Run.outcome (turn label position left stage further) level events =
      if events = [] then Outcome.keep []
      else (Run.outcome stage level events).follow (Run.outcome further level) := by
  by_cases fed : events = []
  · rw [if_pos fed, fed, Run.outcome, turn_nil]
    exact Prod.ext rfl (Logged.work_note _ _)
  · rw [if_neg fed]
    simp only [Run.outcome, Outcome.follow]
    cases result : (stage events level).1 with
    | none =>
      rw [turn_absent _ _ _ _ _ fed result]
      simp
    | some kept =>
      rw [turn_kept _ _ _ _ _ fed result]
      simp

theorem runFrom_outcome_nil (stages : List σ) (position : Nat) (level : Level) :
    Run.outcome (runFrom name run position stages) level [] = Outcome.keep [] := by
  cases stages with
  | nil => rfl
  | cons stage rest => exact (turn_outcome _ _ _ _ _ _ _).trans (if_pos rfl)

/-- The position of stages shows in notes alone. -/
theorem runFrom_outcome_moved (stages : List σ) (position place : Nat) (level : Level)
    (events : List Event) :
    Run.outcome (runFrom name run position stages) level events =
      Run.outcome (runFrom name run place stages) level events := by
  induction stages generalizing position place events with
  | nil => rfl
  | cons stage rest ih =>
    simp only [runFrom, turn_outcome]
    rw [funext (ih (position + 1) (place + 1))]

/-- Stages in a row do what the first and then the later ones do. -/
theorem runFrom_outcome_append (first later : List σ) (position place : Nat) (level : Level)
    (events : List Event) :
    Run.outcome (runFrom name run position (first ++ later)) level events =
      (Run.outcome (runFrom name run position first) level events).follow
        (Run.outcome (runFrom name run place later) level) := by
  induction first generalizing position events with
  | nil =>
    -- The later stages are counted from another position, which their notes alone show.
    have moved := runFrom_outcome_moved name run later position place level events
    exact moved.trans (Outcome.keep_follow events _).symm
  | cons stage rest ih =>
    simp only [List.cons_append, runFrom, turn_outcome]
    by_cases fed : events = []
    · rw [if_pos fed, if_pos fed, Outcome.keep_follow, runFrom_outcome_nil]
    · rw [if_neg fed, if_neg fed, Outcome.follow_assoc]
      exact congrArg _ (funext (ih (position + 1)))

end Chain

/-! ## Leaves in a row -/

namespace Leaf

def rowOutcome (stages : List Leaf) (level : Level) (events : List Event) : Outcome :=
  Run.outcome (Chain.runFrom Leaf.name Leaf.call 0 stages) level events

theorem rowOutcome_nil (stages : List Leaf) (level : Level) :
    rowOutcome stages level [] = Outcome.keep [] :=
  Chain.runFrom_outcome_nil _ _ _ _ _

theorem rowOutcome_append (first later : List Leaf) (level : Level) (events : List Event) :
    rowOutcome (first ++ later) level events =
      (rowOutcome first level events).follow (rowOutcome later level) :=
  Chain.runFrom_outcome_append _ _ _ _ _ _ _ _

theorem rowOutcome_single (stage : Leaf) (level : Level) {events : List Event} (fed : events ≠ []) :
    rowOutcome [stage] level events = Run.outcome stage.call level events := by
  have alone := Chain.turn_outcome stage.name 0 1 stage.call (fun events => return some events) level events
  rw [if_neg fed] at alone
  exact alone.trans (Outcome.follow_keep _)

end Leaf

end EventSieve
