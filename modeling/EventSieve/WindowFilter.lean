import EventSieve.Event
import EventSieve.Time.Span
import EventSieve.Time.ClockTime

/-!
Filters on a window of time around a time of day. The day is that of the last
event, in the zone of its stamp.
-/

namespace EventSieve

/-- A written time of day, the span to either side of it, and the channel for complaints. -/
structure WindowFilter where
  around : String
  span : Span := .quarterHour
  channel : String
  deriving DecidableEq, Repr

namespace WindowFilter

/-- The channel for complaints when no other is given. -/
def commonChannel : String := "/eventsift/diagnostic"

/-- The events whose stamp lies in the window around the anchor, both ends included. -/
def inside (span : Span) (anchor : Int) (events : List Event) : List Event :=
  events.filter fun event => span.covers anchor event.lastSeen.instant

end WindowFilter

end EventSieve
