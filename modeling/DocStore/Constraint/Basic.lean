import DocStore.Caller.Value
/-!
# Constraints on fields

A constraint asks something of one field of every document that is written: that the field is
there, that it is there and not null, or that a value of it other than null has a declared type.

The name of a constraint tells it apart from all others and is the key under which it is stored.
`ofJson?_toJson` says that a stored constraint is read back.
-/

set_option autoImplicit false

namespace DocStore

/-- What a constraint asks of its field. -/
inductive Rule where
  | required
  | notNull
  | hasType (type : JsonType)
deriving DecidableEq

/-- A rule about a field. -/
structure Constraint where
  /-- The field that the rule is about. -/
  field : String
  /-- What is asked of the field. -/
  rule : Rule
deriving DecidableEq

namespace Rule

/-- The name of the kind of a rule. -/
def kindName : Rule → String
  | required => "required"
  | notNull => "notnull"
  | hasType _ => "type"

/-- The part of a constraint's name that stands for the rule. -/
def name : Rule → String
  | required => "required"
  | notNull => "notnull"
  | hasType type => "type:" ++ type.name

/-- The rule of a given kind and, where the kind has one, type. -/
def ofNames? (kind : String) (type : Option String) : Option Rule :=
  if kind = "required" then some required
  else if kind = "notnull" then some notNull
  else if kind = "type" then (type.bind JsonType.ofName?).map hasType
  else none

end Rule

namespace Constraint

/-- The name of a constraint. -/
def name (constraint : Constraint) : String :=
  constraint.field ++ ":" ++ constraint.rule.name

/-- The constraint of a given field, kind and type, each of them a string if it is there. -/
def ofParts? (field kind type : Option String) : Option Constraint := do
  let field ← field
  let kind ← kind
  let rule ← Rule.ofNames? kind type
  return ⟨field, rule⟩

/-- The constraint that a caller's value describes. -/
def ofValue? (value : Caller.Value) : Option Constraint :=
  let part (key : String) := (value.field? key).bind Caller.Value.string?
  ofParts? (part "field") (part "kind") (part "type")

/-- The constraint that a JSON value describes. -/
def ofJson? (value : Json) : Option Constraint :=
  let part (key : String) := (value.field? key).bind Json.string?
  ofParts? (part "field") (part "kind") (part "type")

/-- A constraint as a JSON object. -/
def toJson (constraint : Constraint) : Json :=
  .object (("field", Json.string constraint.field)
    :: ("kind", Json.string constraint.rule.kindName)
    :: match constraint.rule with
      | .hasType type => [("type", Json.string type.name)]
      | _ => [])

theorem ofJson?_toJson (constraint : Constraint) : ofJson? constraint.toJson = some constraint := by
  obtain ⟨field, rule⟩ := constraint
  cases rule with
  | required => simp [ofJson?, toJson, Tree.field?, Json.string?, ofParts?, Rule.ofNames?,
      Rule.kindName, List.lookup_cons]
  | notNull => simp [ofJson?, toJson, Tree.field?, Json.string?, ofParts?, Rule.ofNames?,
      Rule.kindName, List.lookup_cons]
  | hasType type => simp [ofJson?, toJson, Tree.field?, Json.string?, ofParts?, Rule.ofNames?,
      Rule.kindName, List.lookup_cons, JsonType.ofName?_name]

end Constraint

end DocStore
