import DocStore.Number.Text
/-!
# Trees and JSON values

A tree is a leaf, an array of trees or an object, whose fields are trees under keys.  JSON values
are the trees whose leaves are scalars.  Keeping the leaves generic lets the same containment test
serve stored documents and the values that callers pass in.

Fields keep the order in which an object lists its keys; `DocStore.Json.Fields` says which order
that is.
-/

set_option autoImplicit false

namespace DocStore

/-- A tree of arrays and objects over leaves of a given type. -/
inductive Tree (α : Type) where
  | leaf (value : α)
  | array (items : List (Tree α))
  | object (fields : List (String × Tree α))

namespace Tree

variable {α : Type}

mutual
/-- Equality of trees is decided node by node. -/
def decEq [DecidableEq α] : (first second : Tree α) → Decidable (first = second)
  | .leaf value, .leaf value' =>
      if same : value = value' then isTrue (by rw [same]) else isFalse (by simpa using same)
  | .array items, .array items' =>
      match decEqItems items items' with
      | isTrue same => isTrue (by rw [same])
      | isFalse differ => isFalse (by simpa using differ)
  | .object fields, .object fields' =>
      match decEqFields fields fields' with
      | isTrue same => isTrue (by rw [same])
      | isFalse differ => isFalse (by simpa using differ)
  | .leaf _, .array _ | .leaf _, .object _ | .array _, .leaf _ | .array _, .object _
  | .object _, .leaf _ | .object _, .array _ => isFalse (by simp)

/-- Equality of array items. -/
def decEqItems [DecidableEq α] : (first second : List (Tree α)) → Decidable (first = second)
  | [], [] => isTrue rfl
  | [], _ :: _ | _ :: _, [] => isFalse (by simp)
  | head :: rest, head' :: rest' =>
      match head.decEq head', decEqItems rest rest' with
      | isTrue same, isTrue same' => isTrue (by rw [same, same'])
      | isFalse differ, _ => isFalse (by simp [differ])
      | _, isFalse differ => isFalse (by simp [differ])

/-- Equality of object fields, their order included. -/
def decEqFields [DecidableEq α] :
    (first second : List (String × Tree α)) → Decidable (first = second)
  | [], [] => isTrue rfl
  | [], _ :: _ | _ :: _, [] => isFalse (by simp)
  | (key, head) :: rest, (key', head') :: rest' =>
      if sameKey : key = key' then
        match head.decEq head', decEqFields rest rest' with
        | isTrue same, isTrue same' => isTrue (by rw [sameKey, same, same'])
        | isFalse differ, _ => isFalse (by simp [differ])
        | _, isFalse differ => isFalse (by simp [differ])
      else isFalse (by simp [sameKey])
end

instance [DecidableEq α] : DecidableEq (Tree α) := decEq

/-- The value of a key, when the tree is an object that has it. -/
def field? (key : String) : Tree α → Option (Tree α)
  | .object fields => fields.lookup key
  | _ => none

/-- Whether the tree is an object. -/
def isObject : Tree α → Bool
  | .object _ => true
  | _ => false

/-- The keys of an object in order, and none of any other tree. -/
def keys : Tree α → List String
  | .object fields => fields.map Prod.fst
  | _ => []

end Tree

/-- A JSON value that holds no other values. -/
inductive Scalar where
  | null
  | boolean (value : Bool)
  | number (value : Number)
  | string (value : String)
deriving DecidableEq

namespace Scalar

/-- Scalars are the same when they are of one kind and equal; the two zeros are equal. -/
def same : Scalar → Scalar → Bool
  | .number value, .number value' => value.same value'
  | first, second => first == second

end Scalar

/-- A JSON value. -/
abbrev Json := Tree Scalar

instance : Inhabited Json := ⟨.leaf .null⟩

namespace Json

/-- The value null. -/
abbrev null : Json := .leaf .null

/-- A truth value. -/
abbrev boolean (value : Bool) : Json := .leaf (.boolean value)

/-- A number. -/
abbrev number (value : Number) : Json := .leaf (.number value)

/-- A string. -/
abbrev string (value : String) : Json := .leaf (.string value)

/-- The text of a string value. -/
def string? : Json → Option String
  | .leaf (.string value) => some value
  | _ => none

end Json

/-- The types that a rule may declare for a field. -/
inductive JsonType where
  | string
  | number
  | object
  | array
  | boolean
deriving DecidableEq

namespace JsonType

/-- Every type, in the order in which messages list them. -/
def all : List JsonType := [string, number, object, array, boolean]

/-- The name of a type. -/
def name : JsonType → String
  | string => "string"
  | number => "number"
  | object => "object"
  | array => "array"
  | boolean => "boolean"

/-- The type of a given name. -/
def ofName? (name : String) : Option JsonType :=
  all.find? fun type => type.name == name

theorem ofName?_name (type : JsonType) : ofName? type.name = some type := by
  cases type <;> rfl

end JsonType

namespace Json

/-- The type of a value; null has none. -/
def type? : Json → Option JsonType
  | .leaf .null => none
  | .leaf (.boolean _) => some .boolean
  | .leaf (.number _) => some .number
  | .leaf (.string _) => some .string
  | .array _ => some .array
  | .object _ => some .object

end Json

end DocStore
