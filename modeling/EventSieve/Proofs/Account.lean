import EventSieve.Proofs.Chain
import EventSieve.Store

/-!
The log of a chain as an account of its run. At the level of debug messages a
chain writes a line for each stage that it applied, and at most one more that
says why it stopped (`Chain.Ending`). Together they tell how many events each
stage was given, what came of the run and which stages were never called. The
stages may be anything that is run; what they write themselves is deeper.
-/

namespace EventSieve

theorem Text.intText_natCast (n : Nat) : Text.intText n = Text.natText n := by
  have positive : ¬ (n : Int) < 0 := Int.not_lt.2 (Int.natCast_nonneg n)
  rw [intText, if_neg positive, Int.natAbs_natCast]

/-- A line on the main log: its level and its text. -/
abbrev LogLine := Level × String

def Message.line (message : Message) : LogLine := (message.level, message.text)

namespace Journal

/-- The lines of a computation itself, without those of what it encloses. -/
def ownLines (journal : Journal) : List LogLine :=
  (journal.notes.filter fun note => note.depth = 0).map fun note => note.message.line

@[simp] theorem ownLines_append (first later : Journal) :
    (first ++ later).ownLines = first.ownLines ++ later.ownLines := by
  simp [ownLines]

@[simp] theorem ownLines_enclosed (journal : Journal) : journal.enclosed.ownLines = [] := by
  simp [ownLines, enclosed]

theorem ownLines_note {message : Message} {level : Level} (recorded : level ≤ message.level) :
    (Logged.note message level).2.ownLines = [message.line] := by
  rw [Logged.note_apply, if_pos recorded]
  rfl

end Journal

namespace Chain
variable {σ : Type}

/-! ## Lines of a chain -/

/-- A stage was applied to so many events and kept so many. -/
def appliedLine (stage : String) (given kept : Nat) : LogLine :=
  (.debug, "filter applied:" ++ stage ++ "\tin:" ++ Text.natText given ++ "\tout:" ++ Text.natText kept)

/-- So many stages had nothing to be applied to. -/
def skippedLine (left : Nat) : LogLine :=
  (.debug, "no events left, skip remaining filters:" ++ Text.natText left)

/-- The stage at a position could not run. -/
def abortedLine (stage : String) (position : Nat) : LogLine :=
  (.warn, "filter could not run, abort chain:" ++ stage ++ "\tposition:" ++ Text.natText position)

theorem line_stageApplied (stage : String) (given kept : Nat) :
    (Message.stageApplied stage given kept).line = appliedLine stage given kept := by
  have written : (Message.stageApplied stage given kept).line = (.debug,
      Line.keyText "filter applied" ++ ":" ++ stage ++ "\t" ++
        (Line.keyText "in" ++ ":" ++ Text.intText given ++ "\t" ++
          (Line.keyText "out" ++ ":" ++ Text.intText kept))) := rfl
  have key : "filter applied:" = Line.keyText "filter applied" ++ ":" := by decide
  have givenKey : "\tin:" = "\t" ++ (Line.keyText "in" ++ ":") := by decide
  have keptKey : "\tout:" = "\t" ++ (Line.keyText "out" ++ ":") := by decide
  rw [written, appliedLine, key, givenKey, keptKey, Text.intText_natCast, Text.intText_natCast]
  simp only [String.append_assoc]

theorem line_stagesSkipped (left : Nat) : (Message.stagesSkipped left).line = skippedLine left := by
  have written : (Message.stagesSkipped left).line = (.debug,
      Line.keyText "no events left, skip remaining filters" ++ ":" ++ Text.intText left) := rfl
  have key : "no events left, skip remaining filters:" =
      Line.keyText "no events left, skip remaining filters" ++ ":" := by decide
  rw [written, skippedLine, key, Text.intText_natCast]

theorem line_chainAborted (stage : String) (position : Nat) :
    (Message.chainAborted stage position).line = abortedLine stage position := by
  have written : (Message.chainAborted stage position).line = (.warn,
      Line.keyText "filter could not run, abort chain" ++ ":" ++ stage ++ "\t" ++
        (Line.keyText "position" ++ ":" ++ Text.intText position)) := rfl
  have key : "filter could not run, abort chain:" =
      Line.keyText "filter could not run, abort chain" ++ ":" := by decide
  have positionKey : "\tposition:" = "\t" ++ (Line.keyText "position" ++ ":") := by decide
  rw [written, abortedLine, key, positionKey, Text.intText_natCast]
  simp only [String.append_assoc]

/-! ## Accounts -/

/-- How a chain ends after it applied some of its stages, given what they left: the lines that it still
    writes, its result, and how many stages were called in all. Positions are counted from a start. -/
inductive Ending (name : σ → String) (run : σ → Run) (start : Nat) (stages : List σ) (applied : Nat)
    (left : List Event) : List LogLine → Option (List Event) → Nat → Prop
  | finished : applied = stages.length → Ending name run start stages applied left [] (some left) applied
  | skipped : applied < stages.length → left = [] →
      Ending name run start stages applied left [skippedLine (stages.length - applied)] (some []) applied
  | aborted {stage : σ} : stages[applied]? = some stage → left ≠ [] → (run stage left .debug).1 = none →
      Ending name run start stages applied left [abortedLine (name stage) (start + applied)] none
        (applied + 1)

/-- The lines that a chain writes itself tell its run. Each stage applied was given some events, the
    first one those of the chain and every other one what the stage before it kept; its line says so,
    and the lines end as the run did. After some calls of its own the chain called the stages applied, and
    the one that could not run, and no others. -/
def Accounted (name : σ → String) (run : σ → Run) (start : Nat) (stages : List σ) (own : List Call)
    (events : List Event) (outcome : Option (List Event) × Journal) : Prop :=
  ∃ (applied : Nat) (given : Nat → List Event) (ending : List LogLine) (called : Nat),
    given 0 = events ∧
    (∀ i < applied, given i ≠ [] ∧
      ∃ stage, stages[i]? = some stage ∧ (run stage (given i) .debug).1 = some (given (i + 1))) ∧
    Ending name run start stages applied (given applied) ending outcome.1 called ∧
    outcome.2.ownLines = ((stages.take applied).mapIdx fun i stage =>
      appliedLine (name stage) (given i).length (given (i + 1)).length) ++ ending ∧
    outcome.2.calls =
      own ++ ((stages.take called).mapIdx fun i stage => (run stage (given i) .debug).2.calls).flatten

section
variable {name : σ → String} {run : σ → Run} {start : Nat} {stage : σ} {rest : List σ}

/-- An ending stays the same when a stage was applied before. -/
theorem Ending.cons {applied called : Nat} {left : List Event} {lines : List LogLine}
    {result : Option (List Event)}
    (ending : Ending name run (start + 1) rest applied left lines result called) :
    Ending name run start (stage :: rest) (applied + 1) left lines result (called + 1) := by
  cases ending with
  | finished all => exact .finished (congrArg Nat.succ all)
  | skipped more empty =>
    have remaining : rest.length - applied = (stage :: rest).length - (applied + 1) := by
      rw [List.length_cons, Nat.add_sub_add_right]
    rw [remaining]
    exact .skipped (Nat.succ_lt_succ more) empty
  | @aborted unable found fed absent =>
    have place : start + 1 + applied = start + (applied + 1) := by omega
    rw [place]
    exact .aborted (List.getElem?_cons_succ.trans found) fed absent

theorem accounted_nil (events : List Event) :
    Accounted name run start [] [] events (some events, {}) :=
  ⟨0, fun _ => events, [], 0, rfl, by simp, .finished rfl, rfl, rfl⟩

theorem accounted_skipped (further : Run) :
    Accounted name run start (stage :: rest) [] []
      (turn (name stage) start (rest.length + 1) (run stage) further [] .debug) := by
  have recorded : Level.debug ≤ (Message.stagesSkipped (rest.length + 1)).level := Nat.le_refl _
  rw [turn_nil]
  refine ⟨0, fun _ => [], [skippedLine (rest.length + 1)], 0, rfl, by simp, ?_, ?_, ?_⟩
  · exact .skipped (Nat.succ_pos _) rfl
  · rw [Journal.ownLines_note recorded, line_stagesSkipped]
    rfl
  · rw [Logged.calls_note]
    rfl

theorem accounted_aborted {events : List Event} (fed : events ≠ [])
    (absent : (run stage events .debug).1 = none) (further : Run) :
    Accounted name run start (stage :: rest) [] events
      (turn (name stage) start (rest.length + 1) (run stage) further events .debug) := by
  have recorded : Level.debug ≤ (Message.chainAborted (name stage) start).level := by
    show Level.debug ≤ Level.warn
    decide
  rw [turn_absent _ _ _ _ _ fed absent]
  refine ⟨0, fun _ => events, [abortedLine (name stage) start], 1, rfl, by simp, ?_, ?_, ?_⟩
  · exact .aborted rfl fed absent
  · rw [Journal.ownLines_append, Journal.ownLines_enclosed, Journal.ownLines_note recorded, line_chainAborted]
    rfl
  · simp

theorem accounted_applied {events kept : List Event} (fed : events ≠ [])
    (present : (run stage events .debug).1 = some kept) {further : Run}
    (later : Accounted name run (start + 1) rest [] kept (further kept .debug)) :
    Accounted name run start (stage :: rest) [] events
      (turn (name stage) start (rest.length + 1) (run stage) further events .debug) := by
  have recorded : Level.debug ≤ (Message.stageApplied (name stage) events.length kept.length).level :=
    Nat.le_refl _
  obtain ⟨applied, given, ending, called, rfl, passed, ends, lines, calls⟩ := later
  rw [turn_kept _ _ _ _ _ fed present]
  -- What the stages are given is moved on by one place, behind the events of the chain.
  let moved : Nat → List Event
    | 0 => events
    | i + 1 => given i
  refine ⟨applied + 1, moved, ending, called + 1, rfl, ?_, ends.cons, ?_, ?_⟩
  · intro i before
    cases i with
    | zero => exact ⟨fed, stage, rfl, present⟩
    | succ i => exact passed i (Nat.lt_of_succ_lt_succ before)
  · simp [Journal.ownLines_note recorded, line_stageApplied, lines, moved]
  · simp [calls, moved]

end

/-- Every run is accounted for, from any position on. -/
theorem runFrom_accounted (name : σ → String) (run : σ → Run) (stages : List σ) (start : Nat)
    (events : List Event) :
    Accounted name run start stages [] events (runFrom name run start stages events .debug) := by
  -- A turn makes an account of its own where it ends the run, and otherwise extends that of what follows.
  induction stages generalizing start events with
  | nil => exact accounted_nil events
  | cons stage rest ih =>
    rw [runFrom]
    by_cases fed : events = []
    · subst fed
      exact accounted_skipped _
    · cases result : (run stage events .debug).1 with
      | none => exact accounted_aborted fed result _
      | some kept => exact accounted_applied fed result (ih (start + 1) kept)

/-- A chain that is called as a filter leaves its own call before those of its stages. -/
theorem called_accounted (name : σ → String) (run : σ → Run) (stages : List σ) (events : List Event) :
    Accounted name run 0 stages [⟨.chain, events⟩] events
      ((do Logged.called .chain events; runFrom name run 0 stages events : Logged _) .debug) := by
  obtain ⟨applied, given, ending, called, first, passed, ends, lines, calls⟩ :=
    runFrom_accounted name run stages 0 events
  refine ⟨applied, given, ending, called, first, passed, ends, ?_, ?_⟩
  · rw [Logged.bind_apply, Logged.called_apply, Journal.ownLines_append, lines]
    rfl
  · rw [Logged.bind_apply, Logged.called_apply, Journal.calls_append, calls]
    rfl

/-- At the level of debug messages the lines of a chain account exactly for its run, whatever its
    stages are: for a chain of filters, for a shared one, and for one of anything that can be run. -/
theorem run_accounted :
    (∀ (stages : List Filter) (events : List Event),
      Accounted Filter.name Filter.run 0 stages [⟨.chain, events⟩] events
        ((Filter.chain stages).run events .debug)) ∧
    (∀ (store : Store) (number depth : Nat) (events : List Event),
      Accounted Held.name (store.runWithin depth) 0 (store.stages number) [⟨.chain, events⟩] events
        (store.runWithin (depth + 1) (.chain number) events .debug)) ∧
    ∀ {σ : Type} (name : σ → String) (run : σ → Run) (stages : List σ) (events : List Event),
      Accounted name run 0 stages [] events (runFrom name run 0 stages events .debug) := by
  refine ⟨?_, ?_, ?_⟩
  · intro stages events
    rw [Filter.run, Filter.runFrom_eq]
    exact called_accounted Filter.name Filter.run stages events
  · intro store number depth events
    exact called_accounted Held.name (store.runWithin depth) (store.stages number) events
  · intro σ name run stages events
    exact runFrom_accounted name run stages 0 events

end Chain

end EventSieve
