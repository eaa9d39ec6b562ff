/-!
Kinds of objects, qualified by their API group. They are ordered by group and
then by kind, code point by code point.
-/

namespace EventSieve

/-- A kind within an API group; the core group's name is empty. -/
structure QualifiedKind where
  group : String := ""
  kind : String := ""
  deriving DecidableEq, Repr

namespace QualifiedKind

/-- The kind alone in the core group, otherwise kind and group with a point between them. -/
def text (key : QualifiedKind) : String :=
  if key.group = "" then key.kind else key.kind ++ "." ++ key.group

instance : LT QualifiedKind where
  lt a b := a.group < b.group ∨ (a.group = b.group ∧ a.kind < b.kind)

instance (a b : QualifiedKind) : Decidable (a < b) :=
  inferInstanceAs (Decidable (a.group < b.group ∨ (a.group = b.group ∧ a.kind < b.kind)))

end QualifiedKind

end EventSieve
