import DocStore.Caller.Plain
import DocStore.Constraint.Check
/-!
# Records of callers in the place of constraints

A caller may put a record of its own in the place of a constraint.  It asks what its kind says, as
far as it says anything: its field and its type may be any values, which are told by their text
forms.  A part without a text form makes the record unusable where the text is needed.
-/

set_option autoImplicit false

namespace DocStore

open Caller (View Value Shown)

/-- A record: its parts, each under its name. -/
abbrev Record : Type := List (String × View)

namespace Record

/-- The record that a value of a caller is. -/
def ofValue (value : Value) : Record :=
  (View.ofValue value).entries?.getD []

/-- The part of a name; a missing one holds no value. -/
def part (record : Record) (name : String) : View :=
  (record.lookup name).getD (.ofValue .absent)

/-- The kind of a record, if it is a text. -/
def kind? (record : Record) : Option String :=
  (record.part "kind").value.string?

/-- A record as JSON.  One that holds itself or a whole number of the unbounded kind has no place
there. -/
def toJson (record : Record) : Json :=
  if Caller.holdsFunction "toJSON" (record.map fun part => (part.1, part.2.value)) then
    Json.number (.ofNat 1)
  else
    .object (record.filterMap fun (name, part) =>
      part.plain.toOption.join.map fun json => (name, json))

/-- What a value holds in the field of a record.  A field that is a mark is held by nothing. -/
def held? (record : Record) (document : View) : Option Presence :=
  let field := record.part "field"
  if document.value.isMissing then none
  else if Caller.isSymbol field.value then some .missing
  else field.text?.map fun key => .ofFound (document.own? key)

/-- What a message says about what is held in the field of a record, if the record does not allow
it. -/
def complaint? (record : Record) (held : Presence) : Option (Option String) :=
  let field := (record.part "field").shown?
  match record.kind?, held with
  | some "required", .missing => field.map fun field => some (Constraint.requiredMessage field)
  | some "notnull", .missing | some "notnull", .null =>
      field.map fun field => some (Constraint.notNullMessage field)
  | some "type", .typed actual =>
      let type := record.part "type"
      if type.value.string? = some actual.name then some none
      else do return some (Constraint.typeMessage (← field) (← type.shown?) actual)
  | _, _ => some none

/-- How a value breaks a record, if it does. -/
def violation? (record : Record) (document : Value) : Option (Option Violation) := do
  let held ← record.held? (.ofValue document)
  let message ← record.complaint? held
  return message.map fun message => ⟨record.toJson, message⟩

/-- The name that a record has in the place of a constraint; one of an unknown kind has none. -/
def name? (record : Record) : Option (Option String) := do
  let field := (record.part "field").shown?
  match record.kind? with
  | some "required" => return some ((← field) ++ ":required")
  | some "notnull" => return some ((← field) ++ ":notnull")
  | some "type" => return some ((← field) ++ ":type:" ++ (← (record.part "type").shown?))
  | _ => return none

/-- Whether a record declares another type for a field than a given one. -/
def declaresOther (record : Record) (field : String) (type : JsonType) : Bool :=
  record.kind? == some "type"
    && (record.part "field").value.string? == some field
    && (record.part "type").value.string? != some type.name

end Record

end DocStore
