import EventSieve.QualifiedKind

/-!
Rules that include or exclude kinds of objects. A rule has a pattern for the
group and one for the kind. Its key writes both as texts: a star stands for
every name, a minus sign before the kind for exclusion. Keys and the rules with
a key form correspond one to one; a rule whose pattern is the star itself, or
that includes a kind starting with a minus sign, has no key form.
-/

namespace EventSieve

/-- What names a rule applies to: all, or exactly one. -/
inductive NamePattern
  | any
  | exactly (value : String)
  deriving DecidableEq, Repr

namespace NamePattern

/-- The pattern that a text stands for; the star stands for every name. -/
def ofText (text : String) : NamePattern :=
  if text = "*" then .any else .exactly text

def text : NamePattern → String
  | .any => "*"
  | .exactly value => value

/-- The one name of a pattern, empty when it has none. -/
def value : NamePattern → String
  | .any => ""
  | .exactly value => value

def isAny : NamePattern → Bool
  | .any => true
  | .exactly _ => false

def admits (pattern : NamePattern) (name : String) : Bool :=
  match pattern with
  | .any => true
  | .exactly value => value = name

end NamePattern

/-- Includes, or excludes when negated, the kinds that both patterns apply to. -/
structure Rule where
  group : NamePattern := .any
  kind : NamePattern := .any
  negated : Bool := false
  deriving DecidableEq, Repr

namespace Rule

/-- The rule that a key stands for; the first minus sign of its kind means exclusion. -/
def ofKey (key : QualifiedKind) : Rule :=
  match key.kind.toList with
  | '-' :: rest => ⟨.ofText key.group, .ofText (String.ofList rest), true⟩
  | _ => ⟨.ofText key.group, .ofText key.kind, false⟩

/-- The key that writes a rule. -/
def key (rule : Rule) : QualifiedKind :=
  ⟨rule.group.text, (if rule.negated then "-" else "") ++ rule.kind.text⟩

/-- The key of the rule stands for the rule. -/
def isWritable (rule : Rule) : Bool := ofKey rule.key = rule

/-- Both patterns apply to the kind of an object. -/
def admits (rule : Rule) (actual : QualifiedKind) : Bool :=
  rule.group.admits actual.group && rule.kind.admits actual.kind

/-- What a rule does and to which group and kind. -/
def text (rule : Rule) : String :=
  (if rule.negated then "exclude " else "include ") ++
    "group=" ++ rule.group.text ++ " kind=" ++ rule.kind.text

end Rule

end EventSieve
