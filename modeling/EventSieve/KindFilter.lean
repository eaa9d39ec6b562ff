import EventSieve.KindMode
import EventSieve.RuleTable

/-!
Filters on the kind of the object that an event is about. Legacy mode looks the
kind up among the keys of the rules, pass by pass, and may emit an event twice:
once for its own key and once for a wildcard. Exclusion-first mode asks the
rules themselves: one exclusion hides an event, else one inclusion shows it.
-/

namespace EventSieve

/-- Rules in order, repetitions kept, and how they are weighed. -/
structure KindFilter where
  mode : KindMode
  rules : List Rule
  deriving DecidableEq, Repr

namespace KindFilter

/-- The filter with the rules that the keys of a table stand for. -/
def ofTable (mode : KindMode) (table : RuleTable) : KindFilter := ⟨mode, table.rules⟩

def keys (filter : KindFilter) : List QualifiedKind := filter.rules.map Rule.key

/-- A key excludes the kind in every group, or every kind in the group. -/
def isWideExclusion (actual key : QualifiedKind) : Bool :=
  (key.group = "*" && key.kind = "-" ++ actual.kind) || (key.kind = "-*" && key.group = actual.group)

/-- A key includes everything, the kind in every group, or every kind in the group. -/
def isWideInclusion (actual key : QualifiedKind) : Bool :=
  (key.group = "*" && key.kind = "*") || (key.group = "*" && key.kind = actual.kind) ||
    (key.kind = "*" && key.group = actual.group)

/-- Exact emissions in legacy mode. The kind's own exclusion hides it from all; its own inclusion
    counts once; a wide inclusion counts once more unless there is a wide exclusion. -/
def legacyCopies (keys : List QualifiedKind) (actual : QualifiedKind) : Nat :=
  if keys.contains ⟨actual.group, "-" ++ actual.kind⟩ then 0
  else
    let own := if keys.contains actual then 1 else 0
    if keys.any (isWideExclusion actual) then own
    else if keys.any (isWideInclusion actual) then own + 1
    else own

/-- The rules asked in order: the first exclusion that applies decides, else whether an inclusion
    applied. -/
def isIncluded (actual : QualifiedKind) : List Rule → Bool → Bool
  | [], included => included
  | rule :: rest, included =>
    if rule.admits actual then
      if rule.negated then false else isIncluded actual rest true
    else isIncluded actual rest included

/-- How often the filter emits an event about an object of the kind. -/
def copies (filter : KindFilter) (actual : QualifiedKind) : Nat :=
  match filter.mode with
  | .legacy => legacyCopies filter.keys actual
  | .exclusionFirst => if isIncluded actual filter.rules false then 1 else 0

end KindFilter

end EventSieve
