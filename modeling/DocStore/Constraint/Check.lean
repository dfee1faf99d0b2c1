import DocStore.Constraint.Basic
/-!
# Checking documents

`Constraint.allows` decides a constraint on what a document holds in the constrained field, and
`Constraint.complaint?` says in words what is not allowed; `complaint?_eq_none_iff` says that they
agree.  `violations` lists what is broken by a document, in the order of the constraints, and
`violations_eq_nil_iff` says that a document breaks nothing when every constraint allows it.
-/

set_option autoImplicit false

namespace DocStore

/-- What an object holds under a key. -/
inductive Presence where
  /-- The object has no such key. -/
  | missing
  /-- The key is there without a value. -/
  | unset
  | null
  | typed (type : JsonType)
deriving DecidableEq

namespace Presence

/-- What a JSON object holds under a key. -/
def ofJson (document : Json) (key : String) : Presence :=
  match document.field? key with
  | none => missing
  | some value =>
      match Json.type? value with
      | none => null
      | some type => typed type

/-- What a caller's value holds under a key, given what is found there. -/
def ofFound : Option Caller.Value → Presence
  | none => missing
  | some .absent => unset
  | some value =>
      match value.type? with
      | none => null
      | some type => typed type

end Presence

namespace Constraint

/-- Whether a constraint allows what is held in its field. -/
def allows (constraint : Constraint) (held : Presence) : Bool :=
  match constraint.rule, held with
  | .required, .missing => false
  | .required, _ => true
  | .notNull, .missing | .notNull, .null => false
  | .notNull, _ => true
  | .hasType type, .typed actual => type == actual
  | .hasType _, _ => true

/-- What a message says about a missing field. -/
def requiredMessage (field : String) : String :=
  "Field \"" ++ field ++ "\" is required"

/-- What a message says about a field that is missing or null. -/
def notNullMessage (field : String) : String :=
  "Field \"" ++ field ++ "\" must be present and not null"

/-- What a message says about a field whose value has another type than declared. -/
def typeMessage (field type : String) (actual : JsonType) : String :=
  "Field \"" ++ field ++ "\" must be of type " ++ type ++ " or null (got " ++ actual.name ++ ")"

/-- What a message says about what is held in the field, if the constraint does not allow it. -/
def complaint? (constraint : Constraint) (held : Presence) : Option String :=
  match constraint.rule, held with
  | .required, .missing => some (requiredMessage constraint.field)
  | .notNull, .missing | .notNull, .null => some (notNullMessage constraint.field)
  | .hasType type, .typed actual =>
      if type = actual then none else some (typeMessage constraint.field type.name actual)
  | _, _ => none

theorem complaint?_eq_none_iff (constraint : Constraint) (held : Presence) :
    constraint.complaint? held = none ↔ constraint.allows held = true := by
  obtain ⟨field, rule⟩ := constraint
  cases rule <;> cases held <;> simp [complaint?, allows]

end Constraint

/-- What a document breaks, and what to say about it. -/
structure Violation where
  /-- The constraint that is not met, as JSON. -/
  constraint : Json
  /-- What to say about it. -/
  message : String
deriving DecidableEq

/-- A violation as a JSON object. -/
def Violation.toJson (violation : Violation) : Json :=
  .object [("constraint", violation.constraint), ("message", Json.string violation.message)]

/-- How a document breaks a constraint, if it does. -/
def Constraint.violation? (constraint : Constraint) (document : Json) : Option Violation :=
  (constraint.complaint? (Presence.ofJson document constraint.field)).map fun message =>
    ⟨constraint.toJson, message⟩

/-- What a document breaks of some constraints, in their order. -/
def violations (document : Json) (constraints : List Constraint) : List Violation :=
  constraints.filterMap fun constraint => constraint.violation? document

theorem violations_eq_nil_iff (document : Json) (constraints : List Constraint) :
    violations document constraints = []
      ↔ ∀ constraint ∈ constraints,
          constraint.allows (Presence.ofJson document constraint.field) = true := by
  simp [violations, Constraint.violation?, Constraint.complaint?_eq_none_iff,
    List.filterMap_eq_nil_iff]

end DocStore
