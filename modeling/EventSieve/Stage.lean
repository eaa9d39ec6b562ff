import EventSieve.Resolve

/-!
What the filters that are no chains make of a list of events. The result is
absent when a filter could not run; the events that it keeps stay in order, and
an event may be kept more than once.
-/

namespace EventSieve

/-- What a filter does with events. -/
abbrev Run := List Event → Logged (Option (List Event))

/-- Notes on the rules without a key form, in order. -/
def KindFilter.announceRules : List Rule → Logged Unit
  | [] => return ()
  | rule :: rest => do
    if rule.isWritable then pure () else Logged.note (.keyFormMissing rule)
    announceRules rest

/-- Notes on a new kind filter: in legacy mode on rules without a key form, then on the filter. -/
def KindFilter.announce (filter : KindFilter) : Logged Unit := do
  match filter.mode with
  | .legacy => announceRules filter.rules
  | .exclusionFirst => pure ()
  Logged.note (.kindFilterMade filter)

/-- Each event as often as the filter emits one about an object of its kind. -/
def KindFilter.run (filter : KindFilter) : List Event → Logged (List Event)
  | [] => return []
  | event :: rest => do
    let actual ← event.subject.resolve
    let kept ← filter.run rest
    return List.replicate (filter.copies actual) event ++ kept

/-- The events in the window, if there is a last event to take the day from and a time of day that
    can be read; otherwise a complaint says which is missing. -/
def WindowFilter.run (filter : WindowFilter) : Run := fun events =>
  match events.getLast? with
  | none => do
    Logged.complain filter.channel (.dayMissing filter.around)
    return none
  | some last =>
    match ClockTime.read filter.around with
    | .error problem => do
      Logged.complain filter.channel (.aroundUnreadable filter.around problem)
      return none
    | .ok time => do
      let anchor := time.anchor last.lastSeen
      Logged.note (.windowPlaced anchor last.lastSeen filter.span events.length)
      return some (WindowFilter.inside filter.span anchor events)

namespace Leaf

def announce : Leaf → Logged Unit
  | .kind filter => filter.announce
  | _ => return ()

/-- Exact result of a filter that is no chain. -/
def run : Leaf → Run
  | .warnings => fun events => return some (events.filter fun event => event.severity = .warning)
  | .field which condition => fun events =>
    return some (events.filter fun event => condition.accepts (which.text event))
  | .kind filter => fun events => return some (← filter.run events)
  | .window filter => filter.run
  | .custom _ _ keep => fun events => return keep events

/-- A filter's result, with the call left in the journal. -/
def call (stage : Leaf) : Run := fun events => do
  Logged.called (.leaf stage) events
  stage.run events

end Leaf

end EventSieve
