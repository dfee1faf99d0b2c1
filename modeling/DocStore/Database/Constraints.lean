import DocStore.Database.Interface
import DocStore.Json.Printer
/-!
# Collections and their constraints

Collections are known by their names alone.  Creating one that exists and dropping one that does not
changes nothing; a change is logged.  `checkedName` accepts the name of a collection from a caller.

Constraints are added and removed by specifications.  A specification is settled as a whole before
anything is changed: names of types, and that no field would get a second type.  Adding what is
there and removing what is not there changes nothing.  `enforce` refuses a document that breaks a
constraint and lists everything that it breaks.
-/

set_option autoImplicit false

/-! ## The registry of collections -/

namespace DocStore.Database

/-- The name that a caller gives for a collection. -/
def checkedName (value : Caller.Value) : Except Failure String :=
  match value.string? with
  | none => .error (.ofInput (.name .missing))
  | some name =>
      match Collection.nameFault? name with
      | some fault => .error (.ofInput (.name fault))
      | none => .ok name

namespace Registry

variable {content : Content}

/-- Whether a collection exists. -/
def exists? (collection : content.Key) : ActionOn content Bool :=
  storeOn (.exists collection)

/-- The names of all collections. -/
def names : ActionOn content (List content.Key) :=
  storeOn .collections

/-- What is told about a collection as a whole. -/
def change (event : String) (collection : content.Key) : Notice content where
  level := .info
  event := event
  collection := collection
  field := none
  message := none
  details := none

/-- Create a collection unless it exists, and tell whether it did not. -/
def create (collection : content.Key) : ActionOn content Bool := do
  let created ← storeOn (.create collection)
  if created then tell (change "collection.create" collection)
  return created

/-- Drop a collection, and tell whether it existed. -/
def drop (collection : content.Key) : ActionOn content Bool := do
  let dropped ← storeOn (.drop collection)
  if dropped then tell (change "collection.drop" collection)
  return dropped

end Registry

end DocStore.Database

/-! ## The constraints of a collection -/

namespace DocStore.Database.Constraints

variable {content : Content}

/-- The constraints of a specification. -/
def requested (checkTypes : Bool) (spec : Caller.Value) : Except Failure (List Constraint) :=
  (readSpec checkTypes spec).mapError fun refusal => .ofInput (.spec refusal)

/-- What a collection asks of its documents, in the order of the names. -/
def active (collection : content.Key) : ActionOn content (List content.Check) := do
  let checks ← storeOn (.checks collection)
  let sorted ← Attempt.ofExcept (content.byName StoredCheck.name checks)
  return sorted.map StoredCheck.check

/-- Why a field would get a second type by a constraint. -/
def conflict? (existing : List content.Check) (constraint : Constraint) : Option Failure :=
  match constraint.rule with
  | .hasType type =>
      (existing.findSome? (content.otherType? constraint.field type)).map fun other =>
        match other with
        | .ok other =>
            .ofFault (.typeConflict (.ofString constraint.field) other (.ofString type.name))
        | .error failure => failure
  | _ => none

/-- What is told about a change of a constraint. -/
def change (event : String) (collection : content.Key) (constraint : Constraint) :
    Notice content where
  level := .info
  event := event
  collection := collection
  field := some constraint.field
  message := some constraint.name
  details := none

/-- Add one constraint, and tell whether it was new. -/
def addOne (collection : content.Key) (constraint : Constraint) : ActionOn content Bool := do
  let added ← storeOn
    (.addCheck collection (content.keyOf constraint.name) (content.checkOf constraint))
  if added then tell (change "constraint.add" collection constraint)
  return added

/-- Remove one constraint, and tell whether it was there. -/
def removeOne (collection : content.Key) (constraint : Constraint) : ActionOn content Bool := do
  let removed ← storeOn (.dropCheck collection (content.keyOf constraint.name))
  if removed then tell (change "constraint.remove" collection constraint)
  return removed

/-- Add every constraint of a specification, and tell whether one was new. -/
def add (collection : content.Key) (spec : Caller.Value) : ActionOn content Bool := do
  match requested true spec with
  | .error failure => resultOf (.error failure)
  | .ok [] => resultOf (.ok false)
  | .ok constraints => do
      let existing ← waitFor (active collection)
      match constraints.findSome? (conflict? existing) with
      | some failure => Attempt.fail failure
      | none =>
          let _ ← storeOn (.create collection)
          let added ← Attempt.forEach constraints (addOne collection)
          return added.any id

/-- Remove every constraint of a specification, and tell whether one was there.  Types of unknown
names ask for nothing. -/
def remove (collection : content.Key) (spec : Caller.Value) : ActionOn content Bool := do
  match requested false spec with
  | .error failure => resultOf (.error failure)
  | .ok [] => resultOf (.ok false)
  | .ok constraints => do
      let removed ← Attempt.forEach constraints (removeOne collection)
      return removed.any id

/-- What a document breaks, each with the check that asks for it. -/
def broken (collection : content.Key) (document : content.Document) :
    ActionOn content (List (content.Check × Violation)) := do
  let checks ← waitFor (active collection)
  let found ← Attempt.ofExcept <| checks.mapM fun check => do
    return (← content.violation? document check).map fun violation => (check, violation)
  return found.filterMap id

/-- The names of checks that are not met, as the details of what is told. -/
def rejectionDetails (checks : List content.Check) : String :=
  let name (check : content.Check) := ((content.nameOf? check).map Json.string).getD Json.null
  Json.line (.object [("constraints", .array (checks.map name))])

/-- Refuse a document that breaks what its collection asks. -/
def enforce (collection : content.Key) (document : content.Document) : ActionOn content Unit := do
  let found ← waitFor (broken collection document)
  if found.isEmpty then return ()
  tell
    { level := .warn, event := "document.rejected", collection, field := none
      message := some (toString found.length ++ " constraint violation(s)")
      details := some (rejectionDetails (found.map Prod.fst)) }
  let collection ← Attempt.ofExcept (content.shown collection)
  Attempt.fail (.ofFault (.violation collection (found.map Prod.snd)))

end DocStore.Database.Constraints
