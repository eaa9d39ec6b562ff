import EventSieve.Rule

/-!
Tables of keys with a flag each, in the order of the keys and with no key twice.
The keys stand for rules; the flags are kept and mean nothing to them.
-/

namespace EventSieve

/-- Keys in increasing order, each with its flag. -/
structure RuleTable where
  entries : List (QualifiedKind × Bool) := []
  deriving DecidableEq, Repr

namespace RuleTable

/-- The entries with one more in its place, or with the new flag when the key is there. -/
def insertEntry (key : QualifiedKind) (flag : Bool) :
    List (QualifiedKind × Bool) → List (QualifiedKind × Bool)
  | [] => [(key, flag)]
  | entry :: rest =>
    if key < entry.1 then (key, flag) :: entry :: rest
    else if key = entry.1 then (key, flag) :: rest
    else entry :: insertEntry key flag rest

def insert (table : RuleTable) (key : QualifiedKind) (flag : Bool) : RuleTable :=
  ⟨insertEntry key flag table.entries⟩

/-- The table that the pairs fill one after the other; the last flag of a key stays. -/
def ofList (pairs : List (QualifiedKind × Bool)) : RuleTable :=
  pairs.foldl (fun table pair => table.insert pair.1 pair.2) {}

def keys (table : RuleTable) : List QualifiedKind := table.entries.map Prod.fst

/-- The rules that the keys stand for, in the order of the keys. -/
def rules (table : RuleTable) : List Rule := table.keys.map Rule.ofKey

end RuleTable

end EventSieve
