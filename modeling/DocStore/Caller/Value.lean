import DocStore.Calendar
import DocStore.Json.Fields
import DocStore.Json.Tree
import DocStore.Text.Units
/-!
# Values that callers pass in

A caller may pass any value of its own program, of which JSON has only some: values may be absent,
may not be numbers although they are of numeric kind, may be functions or instances of classes, and
may hold references back to a container around them.  `Value` lists these kinds.  A back reference
counts the containers outwards, so a value is always a finite tree.
-/

set_option autoImplicit false

namespace DocStore.Caller

/-- A value that a caller passes in. -/
inductive Value where
  /-- No value at all. -/
  | absent
  /-- A scalar of JSON, or a number that is not finite. -/
  | scalar (value : Scalar)
  /-- A whole number of any size, which is of a kind of its own. -/
  | integer (value : Int)
  /-- A unique mark with a description. -/
  | symbol (description : String)
  /-- A function. -/
  | function
  | array (items : List Value)
  /-- An object with fields; `bare` says that it inherits nothing, not even a text form. -/
  | object (bare : Bool) (fields : List (String × Value))
  /-- A moment, or nothing when it has no date. -/
  | date (moment : Option Int)
  /-- A keyed collection without entries. -/
  | table
  /-- An instance of a class, without fields of its own. -/
  | instanceOf (className : String)
  /-- A reference to the container so many levels up, one being the nearest. -/
  | enclosing (levels : Nat)

instance : Inhabited Value := ⟨.absent⟩

namespace Value

/-- The name of the kind of a value. -/
def kindName : Value → String
  | absent => "undefined"
  | scalar .null => "object"
  | scalar (.boolean _) => "boolean"
  | scalar (.number _) => "number"
  | scalar (.string _) => "string"
  | integer _ => "bigint"
  | symbol _ => "symbol"
  | function => "function"
  | array _ | object _ _ | date _ | table | instanceOf _ | enclosing _ => "object"

/-- Whether a value is an object of any sort, but not an array. -/
def isObject : Value → Bool
  | object _ _ | date _ | table | instanceOf _ | enclosing _ => true
  | _ => false

/-- Whether a value counts as nothing. -/
def isNothing : Value → Bool
  | absent | scalar .null | scalar (.boolean false) | scalar (.string "")
  | scalar (.number .undefined) => true
  | scalar (.number value) => Number.zero.same value
  | integer value => value == 0
  | _ => false

/-- Whether there is no value at all. -/
def isAbsent : Value → Bool
  | absent => true
  | _ => false

/-- Whether a value is null or no value at all. -/
def isMissing : Value → Bool
  | absent | scalar .null => true
  | _ => false

/-- The text of a value that is a string. -/
def string? : Value → Option String
  | scalar (.string text) => some text
  | _ => none

/-- The fields of a value that is an object. -/
def fields : Value → List (String × Value)
  | object _ fields => fields
  | _ => []

/-- The value of a field; an absent one is found like any other. -/
def field? (key : String) (value : Value) : Option Value :=
  value.fields.lookup key

/-- The type of a value as rules see it, or nothing for null.  Whatever JSON does not have counts
as an object. -/
def type? : Value → Option JsonType
  | scalar .null => none
  | scalar (.boolean _) => some .boolean
  | scalar (.number _) => some .number
  | scalar (.string _) => some .string
  | array _ => some .array
  | _ => some .object

/-- Whether a value is a document: an object whose identifier is a string. -/
def isDocument (value : Value) : Bool :=
  value.isObject && ((value.field? "_id").bind string?).isSome

/-- The moment of a number of milliseconds since the start of the year 1970, which has a date unless
it is too far away. -/
def ofTime (milliseconds : Number) : Value :=
  date (milliseconds.whole?.filter fun moment => moment.natAbs ≤ Calendar.farthest)

/-- A value that holds a JSON string. -/
def ofString (text : String) : Value := scalar (.string text)

end Value

mutual
/-- A JSON value as a caller's value. -/
def ofJson : Tree Scalar → Value
  | .leaf value => .scalar value
  | .array items => .array (ofJsonItems items)
  | .object fields => .object false (ofJsonFields fields)

/-- JSON items as a caller's values. -/
def ofJsonItems : List (Tree Scalar) → List Value
  | [] => []
  | item :: rest => ofJson item :: ofJsonItems rest

/-- JSON fields as a caller's fields. -/
def ofJsonFields : List (String × Tree Scalar) → List (String × Value)
  | [] => []
  | (key, value) :: rest => (key, ofJson value) :: ofJsonFields rest
end

end DocStore.Caller
