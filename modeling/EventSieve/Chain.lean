import EventSieve.Stage

/-!
Chains of stages of any sort. Each stage gets what the one before it kept. A
chain ends early when nothing is left, and has no result when a stage could not
run; its notes tell what became of each stage. Missing stages are never added.
-/

namespace EventSieve.Chain
variable {σ : Type}

/-- The stages with one more at the end; a missing one is ignored and noted. -/
def add (stages : List σ) : Option σ → Logged (List σ)
  | some stage => return stages ++ [stage]
  | none => do
    Logged.note (.missingIgnored stages.length)
    return stages

/-- The stages that are left when all of a list are added in order. -/
def addAll (stages : List σ) : List (Option σ) → Logged (List σ)
  | [] => return stages
  | entry :: rest => do
    let stages ← add stages entry
    addAll stages rest

/-- One turn of a chain: the stage at a position, unless nothing is left for it and the stages after
    it, and then what follows it. -/
def turn (name : String) (position left : Nat) (stage further : Run) : Run := fun events =>
  if events.isEmpty then do
    Logged.note (.stagesSkipped left)
    return some []
  else do
    match ← Logged.inside (stage events) with
    | none =>
      Logged.note (.chainAborted name position)
      return none
    | some kept =>
      Logged.note (.stageApplied name events.length kept.length)
      further kept

/-- The turns of the stages in order, counted from a position. -/
def runFrom (name : σ → String) (run : σ → Run) : Nat → List σ → Run
  | _, [] => fun events => return some events
  | position, stage :: rest =>
    turn (name stage) position (rest.length + 1) (run stage) (runFrom name run (position + 1) rest)

end EventSieve.Chain
