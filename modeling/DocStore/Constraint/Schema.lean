import DocStore.Caller.Value
import DocStore.Json.Pointer
/-!
# Schemas

A schema asks of a value that it is a string, or that it is an object whose keys hold certain values.
A validator tells everything in which a value does not meet a schema (`SchemaError`): what kind of
thing is asked for in vain, and by a pointer where.  `Schema.validate` is a validator.

What a reference inside a value refers to is looked at like any other value.  A key that a schema
names and that holds no value counts as missing.
-/

set_option autoImplicit false

namespace DocStore

/-- What is asked of a value. -/
inductive Schema where
  /-- Nothing. -/
  | any
  /-- That it is a string. -/
  | string
  /-- That it is an object.  The values of some keys have schemas of their own; those of all other
  keys have one schema in common, or else there may be no other keys. -/
  | object (properties : List (String × Schema)) (others : Option Schema)

/-- A way in which a value does not meet a schema. -/
structure SchemaError where
  /-- What kind of thing is asked for. -/
  keyword : String
  /-- The pointer of the part of which it is asked. -/
  instancePath : String
  /-- The key that may not be there, where it is about one. -/
  additionalProperty : Option String
deriving DecidableEq

namespace SchemaError

/-- A part is of another type than is asked for. -/
def wrongType (place : List String) : SchemaError :=
  ⟨"type", Json.Pointer.text place, none⟩

/-- An object has a key that it may not have. -/
def unknownKey (place : List String) (key : String) : SchemaError :=
  ⟨"additionalProperties", Json.Pointer.text place, some key⟩

end SchemaError

/-- Tells in which ways a value does not meet a schema, or nothing when it does. -/
abbrev Validator : Type := Schema → Caller.Value → Option (List SchemaError)

/-- What a value is among some containers, the nearest first, and the containers around that: a
reference is the container that it refers to. -/
def Caller.Value.among (around : List Caller.Value) :
    Caller.Value → Caller.Value × List Caller.Value
  | .enclosing (levels + 1) =>
      match around.drop levels with
      | container :: outer => (container, outer)
      | [] => (.enclosing (levels + 1), around)
  | value => (value, around)

namespace Schema

/-- The keys of an object that a schema does not name, with their values. -/
def unnamed (properties : List (String × Schema)) (fields : List (String × Caller.Value)) :
    List (String × Caller.Value) :=
  fields.filter fun field => !(properties.map Prod.fst).contains field.1

/-- The value that is held under a key, if there is one. -/
def held? (fields : List (String × Caller.Value)) (key : String) : Option Caller.Value :=
  (fields.lookup key).filter fun value => !value.isAbsent

mutual
/-- In which ways a value at a place, among some containers, does not meet a schema. -/
def errors (around : List Caller.Value) (place : List String) (value : Caller.Value) :
    Schema → List SchemaError
  | .any => []
  | .string => if value.string?.isSome then [] else [.wrongType place]
  | .object properties others =>
      let (container, outer) := value.among around
      if container.isObject then
        errorsOfOthers (container :: outer) place (unnamed properties container.fields) others
          ++ errorsOfNamed (container :: outer) place container.fields properties
      else [.wrongType place]

/-- In which ways the values of keys do not meet the schema that they have in common. -/
def errorsOfOthers (around : List Caller.Value) (place : List String)
    (fields : List (String × Caller.Value)) : Option Schema → List SchemaError
  | none => fields.map fun field => .unknownKey place field.1
  | some schema => fields.flatMap fun field => schema.errors around (place ++ [field.1]) field.2

/-- In which ways the values of keys do not meet the schemas of their own. -/
def errorsOfNamed (around : List Caller.Value) (place : List String)
    (fields : List (String × Caller.Value)) : List (String × Schema) → List SchemaError
  | [] => []
  | (key, schema) :: rest =>
      (held? fields key).elim [] (fun value => schema.errors around (place ++ [key]) value)
        ++ errorsOfNamed around place fields rest
end

/-- Tell in which ways a value that nothing is around does not meet a schema. -/
def validate : Validator := fun schema value =>
  match schema.errors [] [] value with
  | [] => none
  | errors => some errors

end Schema

end DocStore
