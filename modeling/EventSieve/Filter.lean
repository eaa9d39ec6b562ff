import EventSieve.Chain

/-!
Filters as trees: leaves, and chains that hold filters. A plan of a filter may
have missing places; building it leaves them out.
-/

namespace EventSieve

/-- A filter: a leaf, or a chain of filters in order. -/
inductive Filter
  | leaf (stage : Leaf)
  | chain (stages : List Filter)

namespace Filter

def chainName : String := "filter_chain"

def name : Filter → String
  | .leaf stage => stage.name
  | .chain _ => chainName

mutual

/-- Exact result of a filter. -/
def run : Filter → Run
  | .leaf stage => stage.call
  | .chain stages => fun events => do
    Logged.called .chain events
    runFrom 0 stages events

/-- The turns of the filters of a chain, counted from a position. -/
def runFrom : Nat → List Filter → Run
  | _, [] => fun events => return some events
  | position, stage :: rest =>
    Chain.turn stage.name position (rest.length + 1) (run stage) (runFrom (position + 1) rest)

end

end Filter

/-- A filter before it is built, with places where one is missing. -/
inductive Plan
  | missing
  | leaf (stage : Leaf)
  | chain (parts : List Plan)

namespace Plan

mutual

/-- The filter of a plan, if it is not missing. The parts of a chain are built before the chain. -/
def build : Plan → Logged (Option Filter)
  | .missing => return none
  | .leaf stage => do
    stage.announce
    return some (.leaf stage)
  | .chain parts => do
    let filters ← buildAll parts
    let stages ← Chain.addAll [] filters
    return some (.chain stages)

def buildAll : List Plan → Logged (List (Option Filter))
  | [] => return []
  | part :: rest => do
    let filter ← build part
    let filters ← buildAll rest
    return filter :: filters

end

end Plan

end EventSieve
