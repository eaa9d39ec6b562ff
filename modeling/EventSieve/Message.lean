import EventSieve.Config.Decode
import EventSieve.ApiVersion
import EventSieve.KindFilter
import EventSieve.Level
import EventSieve.Line
import EventSieve.Time.ClockTime

/-!
What filters and chains have to say, with the level and the text of each
message.
-/

namespace EventSieve

inductive Message
  /-- An API version that cannot be read stands for the group as a whole. -/
  | wholeApiVersion (problem : ApiVersion.ReadError) (subject : Subject)
  /-- The rule's key stands for another rule, which legacy mode uses. -/
  | keyFormMissing (rule : Rule)
  | kindFilterMade (filter : KindFilter)
  | windowPlaced (anchor : Int) (reference : Stamp) (span : Span) (events : Nat)
  /-- There is no event to take the day of a window from. -/
  | dayMissing (around : String)
  | aroundUnreadable (around : String) (problem : ClockTime.ReadError)
  | missingIgnored (position : Nat)
  | stagesSkipped (left : Nat)
  | chainAborted (stage : String) (position : Nat)
  | stageApplied (stage : String) (given kept : Nat)
  | configRefused (problem : ConfigError)
  | chainBuilt (config : Config) (size : Nat)
  /-- A line of a caller's own. -/
  | own (level : Level) (pairs : Line)
  deriving DecidableEq, Repr

namespace Message

def level : Message → Level
  | .wholeApiVersion .. => .debug
  | .keyFormMissing .. => .warn
  | .kindFilterMade .. => .debug
  | .windowPlaced .. => .debug
  | .dayMissing .. => .error
  | .aroundUnreadable .. => .error
  | .missingIgnored .. => .warn
  | .stagesSkipped .. => .debug
  | .chainAborted .. => .warn
  | .stageApplied .. => .debug
  | .configRefused .. => .error
  | .chainBuilt .. => .info
  | .own level _ => level

/-- Exact text of a message. -/
def text : Message → String
  | .wholeApiVersion problem subject =>
    Line.write [("use raw apiVersion as group", .text problem.message), ("kind", .text subject.kind),
      ("name", .text subject.name)]
  | .keyFormMissing rule =>
    Line.write [("kind rule has no key form, legacy mode evaluates it as", .text rule.key.text),
      ("rule", .text rule.text)]
  | .kindFilterMade filter =>
    Line.write [("kind filter created", .text filter.mode.name),
      ("rules", .text (Text.joined "; " (filter.rules.map Rule.text)))]
  | .windowPlaced anchor reference span events =>
    Line.write [("around anchor", .text (Stamp.mk anchor reference.zone).text),
      ("reference", .text reference.text), ("duration", .text span.text), ("events", .number events)]
  | .dayMissing around =>
    "cannot apply around time \"" ++ around ++ "\": no events to take the date from"
  | .aroundUnreadable around problem =>
    "invalid around time \"" ++ around ++ "\": " ++ problem.message
  | .missingIgnored position =>
    Line.write [("ignore null filter", .text ""), ("position", .number position)]
  | .stagesSkipped left => Line.write [("no events left, skip remaining filters", .number left)]
  | .chainAborted stage position =>
    Line.write [("filter could not run, abort chain", .text stage), ("position", .number position)]
  | .stageApplied stage given kept =>
    Line.write [("filter applied", .text stage), ("in", .number given), ("out", .number kept)]
  | .configRefused problem => Line.write [("invalid filter config", .text problem.message)]
  | .chainBuilt config size =>
    Line.write [("event filter chain built", .text config.description), ("filters", .number size)]
  | .own _ pairs => pairs.write

end Message

end EventSieve
