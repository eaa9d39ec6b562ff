import EventSieve.Journal

/-!
The kind of the object that an event is about, with its API group.
-/

namespace EventSieve

/-- The kind with the group of the API version; one that cannot be read stands for the group as a
    whole. -/
def Subject.qualifiedKind (subject : Subject) : QualifiedKind :=
  match ApiVersion.read subject.apiVersion with
  | .ok version => ⟨version.group, subject.kind⟩
  | .error _ => ⟨subject.apiVersion, subject.kind⟩

/-- The kind of an object, with a note when its API version cannot be read. -/
def Subject.resolve (subject : Subject) : Logged QualifiedKind := do
  match ApiVersion.read subject.apiVersion with
  | .ok _ => pure ()
  | .error problem => Logged.note (.wholeApiVersion problem subject)
  return subject.qualifiedKind

end EventSieve
