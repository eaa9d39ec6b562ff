import EventSieve.Store
import EventSieve.Variable

/-!
Chains that are built from settings: reading the settings with a note when they
are refused, and appending a filter for each condition that they put.
-/

namespace EventSieve.Config
variable {σ : Type}

/-- The filter for the accepted texts of a field, if there are any. -/
def fieldStages (config : Config) (field : Field) : List Leaf :=
  if config.accepted field = [] then []
  else [.field field (.oneOf (.ofList (config.accepted field)))]

/-- The filter on kinds, if there are keys. -/
def kindStages (config : Config) : List Leaf :=
  if config.kinds.entries = [] then [] else [.kind (.ofTable config.mode config.kinds)]

/-- The filter on a window of time, if there is a text for its middle. -/
def windowStages (config : Config) (channel : String) : List Leaf :=
  if config.around = "" then [] else [.window ⟨config.around, config.aroundSpan, channel⟩]

/-- Exact filters for the settings, in order: severity, fields, kind, window of time. -/
def stages (config : Config) (channel : String) : List Leaf :=
  (if config.warningsOnly then [.warnings] else []) ++ Field.all.flatMap config.fieldStages ++
    config.kindStages ++ config.windowStages channel

/-- Adds new leaves to the stages of a chain, each announced before it is added. -/
def appendLeaves (lift : Leaf → σ) (chain : List σ) : List Leaf → Logged (List σ)
  | [] => return chain
  | stage :: rest => do
    stage.announce
    let chain ← Chain.add chain (some (lift stage))
    appendLeaves lift chain rest

/-- Appends the filters for the settings to the stages of a chain, and describes the settings. -/
def build (lift : Leaf → σ) (config : Config) (channel : String) (chain : List σ) : Logged (List σ) := do
  let chain ← appendLeaves lift chain (config.stages channel)
  Logged.note (.chainBuilt config chain.length)
  return chain

/-- Reads settings, with a note when they are refused. -/
def parse (json : Json) : Logged (Except ConfigError Config) := do
  match decode json with
  | .ok config => return .ok config
  | .error problem =>
    Logged.note (.configRefused problem)
    return .error problem

/-- Reads settings into a variable, whose complaint is then about this text or about none. -/
def parseInto (json : Json) (old : Variable Config) : Logged (Bool × Variable Config) := do
  let reading ← parse json
  return old.cleared.receive ConfigError.message reading

/-- Appends the filters for settings in JSON; a chain stays as it is when they are refused. -/
def readAndBuild (lift : Leaf → σ) (json : Json) (channel : String) (old : Variable (List σ)) :
    Logged (Bool × Variable (List σ)) := do
  match ← parse json with
  | .error problem => return (false, { old with complaint := problem.message })
  | .ok config =>
    let chain ← build lift config channel old.value
    return (true, ⟨chain, ""⟩)

end EventSieve.Config
