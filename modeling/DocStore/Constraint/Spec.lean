import DocStore.Constraint.Basic
import DocStore.Constraint.Schema
/-!
# Constraint specifications

A specification maps each field to a set of rules, written as an object with one key for each rule.
Its shape is given by a schema, and a validator tells what is wrong with it: `SpecFault.ofError` reads
off the pointer of an error which field and rule it is about.  `readSpec` turns a specification of the
right shape into constraints, in the order in which they are written, and settles the names of types.
-/

set_option autoImplicit false

namespace DocStore

/-- A fault in the shape of a specification. -/
inductive SpecFault where
  /-- The specification is no object. -/
  | notMapping
  /-- The rule set of a field is no object. -/
  | rulesNotObject (field : String)
  /-- A rule set has an unknown key. -/
  | unknownRule (token field : String)
  /-- The type of a rule set is no string. -/
  | typeNotString (field : String)
deriving DecidableEq

namespace SpecFault

/-- What a message says about a fault. -/
def message : SpecFault → String
  | notMapping => "Constraint spec must be an object mapping field names to rules"
  | rulesNotObject field => "Constraint rules for field \"" ++ field ++ "\" must be an object"
  | unknownRule token field =>
      "Unknown constraint rule \"" ++ token ++ "\" for field \"" ++ field ++ "\""
  | typeNotString field =>
      "$type for field \"" ++ field ++ "\" must be a string naming a JSON type"

/-- What a message says about several faults; the same text is given once. -/
def messages (faults : List SpecFault) : String :=
  let told := String.intercalate "; " (faults.map message).eraseDups
  if told = "" then "Invalid constraint spec" else told

/-- The fault that an error of a validator tells of.  The pointer of the error leads to a field and
from there to a rule. -/
def ofError (error : SchemaError) : SpecFault :=
  match Json.Pointer.steps error.instancePath with
  | [] => notMapping
  | field :: inside =>
      if error.keyword = "additionalProperties" then
        unknownRule (error.additionalProperty.getD "undefined") field
      else if inside.head? = some "$type" then typeNotString field
      else rulesNotObject field

end SpecFault

/-- The keys that a rule set may have. -/
def ruleTokens : List String := ["$required", "$notnull", "$type"]

/-- What is asked of a rule set. -/
def rulesSchema : Schema :=
  .object [("$required", .any), ("$notnull", .any), ("$type", .string)] none

/-- What is asked of a specification. -/
def specSchema : Schema :=
  .object [] (some rulesSchema)

/-- The rules of a field.  A reference to the nearest container is a reference to the
specification. -/
def rulesOf (spec rules : Caller.Value) : List (String × Caller.Value) :=
  match rules with
  | .enclosing 1 => spec.fields
  | _ => rules.fields

/-- Why a specification is refused. -/
inductive SpecRefusal where
  /-- Its shape is wrong. -/
  | faults (found : List SpecFault)
  /-- A type has an unknown name. -/
  | unknownType (type field : String)
deriving DecidableEq

/-- What a message says about a refused specification. -/
def SpecRefusal.message : SpecRefusal → String
  | .faults found => SpecFault.messages found
  | unknownType type field =>
      "Invalid $type (\"" ++ type ++ "\") specified for field \"" ++ field
        ++ "\". Please specify the name of a json type: "
        ++ String.intercalate ", " (JsonType.all.map JsonType.name)

/-- Accept a specification that a validator accepts. -/
def checkSpecBy (validate : Validator) (spec : Caller.Value) : Except SpecRefusal Unit :=
  match validate specSchema spec with
  | none => .ok ()
  | some errors => .error (.faults (errors.map .ofError))

/-- Accept a specification of the right shape. -/
def checkSpec (spec : Caller.Value) : Except SpecRefusal Unit :=
  checkSpecBy Schema.validate spec

/-- The constraint that a key of a rule set asks for.  A type of unknown name is refused, or asks
for nothing where names are not checked. -/
def readRule (checkTypes : Bool) (field token : String) (value : Caller.Value) :
    Except SpecRefusal (List Constraint) :=
  if token = "$required" then .ok [⟨field, .required⟩]
  else if token = "$notnull" then .ok [⟨field, .notNull⟩]
  else if token = "$type" then
    let name := value.string?.getD ""
    match JsonType.ofName? name with
    | some type => .ok [⟨field, .hasType type⟩]
    | none => if checkTypes then .error (.unknownType name field) else .ok []
  else .ok []

/-- The constraints of a rule set. -/
def readRules (checkTypes : Bool) (field : String) :
    List (String × Caller.Value) → Except SpecRefusal (List Constraint)
  | [] => .ok []
  | (token, value) :: rest => do
      let first ← readRule checkTypes field token value
      let others ← readRules checkTypes field rest
      return first ++ others

/-- The constraints of the rule sets of a specification. -/
def readFields (checkTypes : Bool) (spec : Caller.Value) :
    List (String × Caller.Value) → Except SpecRefusal (List Constraint)
  | [] => .ok []
  | (field, rules) :: rest => do
      let first ← readRules checkTypes field (rulesOf spec rules)
      let others ← readFields checkTypes spec rest
      return first ++ others

/-- The constraints of a specification that a validator accepts, in the order in which they are
written. -/
def readSpecBy (validate : Validator) (checkTypes : Bool) (spec : Caller.Value) :
    Except SpecRefusal (List Constraint) := do
  checkSpecBy validate spec
  readFields checkTypes spec spec.fields

/-- The constraints of a specification, in the order in which they are written. -/
def readSpec (checkTypes : Bool) (spec : Caller.Value) : Except SpecRefusal (List Constraint) :=
  readSpecBy Schema.validate checkTypes spec

end DocStore
