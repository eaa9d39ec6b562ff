/-!
Levels of log lines, from the most talkative to silence.
-/

namespace EventSieve

/-- How much a log line matters, or how much a line must matter to be recorded. -/
inductive Level
  | trace
  | debug
  | info
  | warn
  | error
  | critical
  | off
  deriving DecidableEq, Repr

namespace Level

def rank : Level → Nat
  | .trace => 0
  | .debug => 1
  | .info => 2
  | .warn => 3
  | .error => 4
  | .critical => 5
  | .off => 6

instance : LE Level where
  le a b := a.rank ≤ b.rank

instance (a b : Level) : Decidable (a ≤ b) := inferInstanceAs (Decidable (a.rank ≤ b.rank))

def name : Level → String
  | .trace => "trace"
  | .debug => "debug"
  | .info => "info"
  | .warn => "warn"
  | .error => "error"
  | .critical => "critical"
  | .off => "off"

def all : List Level := [.trace, .debug, .info, .warn, .error, .critical, .off]

/-- The level with exactly this name. -/
def ofName? (text : String) : Option Level := all.find? fun level => level.name = text

end Level

end EventSieve
