import EventSieve.Filter

/-!
Chains that are shared. A chain holds leaves and other chains of the store, by
number, so what is added to a chain later takes effect wherever it is held. A
chain may even come to hold itself: its run ends when a turn inside leaves no
events, since an inner chain is entered only while there are some.
-/

namespace EventSieve

/-- What a chain of a store holds: a leaf, or the chain with a number. -/
inductive Held
  | leaf (stage : Leaf)
  | chain (number : Nat)

def Held.name : Held → String
  | .leaf stage => stage.name
  | .chain _ => Filter.chainName

/-- The chains, each with its stages; a chain's number is its place. -/
structure Store where
  chains : List (List Held) := []

namespace Store

/-- The stages of a chain at this moment. -/
def stages (store : Store) (number : Nat) : List Held := store.chains.getD number []

def setStages (store : Store) (number : Nat) (stages : List Held) : Store :=
  ⟨store.chains.set number stages⟩

/-- The store with one stage more at the end of one chain; a missing one is ignored and noted. -/
def add (store : Store) (number : Nat) (entry : Option Held) : Logged Store := do
  let stages ← Chain.add (store.stages number) entry
  return store.setStages number stages

/-- A new chain of the entries that are not missing. -/
def newChain (store : Store) (entries : List (Option Held)) : Logged (Held × Store) := do
  let stages ← Chain.addAll [] entries
  return (.chain store.chains.length, ⟨store.chains ++ [stages]⟩)

/-- The result of what is held, for at most as many chains entered inside each other as the depth
    counts; a chain that lies deeper could not run. -/
def runWithin (store : Store) : Nat → Held → Run
  | _, .leaf stage => stage.call
  | 0, .chain _ => fun events => do
    Logged.called .chain events
    return none
  | depth + 1, .chain number => fun events => do
    Logged.called .chain events
    Chain.runFrom Held.name (runWithin store depth) 0 (store.stages number) events

/-- How often chains that hold themselves may be entered again inside each other. -/
def reentries : Nat := 10000

/-- Exact result of what is held at this moment. Without a cycle no more chains are entered inside
    each other than there are; with one, a run may enter as many more as `reentries` says. -/
def run (store : Store) (held : Held) : Run := store.runWithin (store.chains.length + reentries) held

/-- What is held as a tree, down to as many chains inside each other as the depth counts. -/
def treeWithin (store : Store) : Nat → Held → Filter
  | _, .leaf stage => .leaf stage
  | 0, .chain _ => .chain []
  | depth + 1, .chain number => .chain ((store.stages number).map (treeWithin store depth))

/-- What is held at this moment, with every chain expanded into its stages; exact where no chain
    holds itself. -/
def tree (store : Store) (held : Held) : Filter := store.treeWithin store.chains.length held

mutual

/-- Builds a plan in the store; its chains become chains of the store. -/
def place (store : Store) : Plan → Logged (Option Held × Store)
  | .missing => return (none, store)
  | .leaf stage => do
    stage.announce
    return (some (.leaf stage), store)
  | .chain parts => do
    let (entries, store) ← placeAll store parts
    let (held, store) ← store.newChain entries
    return (some held, store)

def placeAll (store : Store) : List Plan → Logged (List (Option Held) × Store)
  | [] => return ([], store)
  | part :: rest => do
    let (entry, store) ← place store part
    let (entries, store) ← placeAll store rest
    return (entry :: entries, store)

end

end Store

end EventSieve
