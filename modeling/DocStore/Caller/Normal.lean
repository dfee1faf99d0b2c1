import DocStore.Caller.Value
import DocStore.Json.Pointer
import DocStore.Number.Text
/-!
# Normal forms of caller values

`normal` accepts exactly the values that JSON can represent and copies them.  Fields that hold no
value are dropped; anything else without a place in JSON is refused at the first position, depth
first and in the order of the keys, at which it occurs.  `normalObject` also asks that the value is
an object, and says in whose name it asks.
-/

set_option autoImplicit false

namespace DocStore.Caller

open Json (Location)

/-- Why a value has no normal form. -/
inductive Misfit where
  /-- A number is not finite; `shown` is its text. -/
  | notFinite (place : Location) (shown : String)
  /-- A value refers back to a container around it. -/
  | circular (place : Location)
  /-- A value is of a kind that JSON does not have. -/
  | foreign (place : Location) (kind : String)
  /-- An array item holds no value. -/
  | absentItem (place : Location)
  /-- An object is an instance of a class. -/
  | instanceOf (place : Location) (className : String)
  /-- The whole value is not an object. -/
  | notObject (label kind : String)
deriving DecidableEq

/-- What a message says about a value without a normal form. -/
def Misfit.message : Misfit → String
  | notFinite place shown => "Value at " ++ place.phrase ++ " is not a finite number: " ++ shown
  | circular place => "Circular reference at " ++ place.phrase
  | foreign place kind =>
      "Value at " ++ place.phrase ++ " is not JSON-serializable (" ++ kind ++ ")"
  | absentItem place => "Value at " ++ place.text ++ " is undefined"
  | instanceOf place className =>
      "Value at " ++ place.phrase ++ " is not a plain JSON object (" ++ className ++ ")"
  | notObject label kind => label ++ " must be a JSON object, got " ++ kind

/-- The normal form of a scalar. -/
def normalScalar (place : Location) : Scalar → Except Misfit Json
  | .number value =>
      if value.isFinite then .ok (Json.number value) else .error (.notFinite place value.text)
  | scalar => .ok (.leaf scalar)

mutual
/-- The normal form of a value at a place. -/
def normal (place : Location) : Value → Except Misfit Json
  | .scalar value => normalScalar place value
  | .enclosing _ => .error (.circular place)
  | .array items => do
      let items ← normalItems place 0 items
      return .array items
  | .object _ fields => do
      let fields ← normalFields place fields
      return .object fields
  | .date _ => .error (.instanceOf place "Date")
  | .table => .error (.instanceOf place "Map")
  | .instanceOf className => .error (.instanceOf place className)
  | .absent => .error (.foreign place "undefined")
  | .integer _ => .error (.foreign place "bigint")
  | .symbol _ => .error (.foreign place "symbol")
  | .function => .error (.foreign place "function")

/-- The normal forms of array items, the first of which has the given number. -/
def normalItems (place : Location) (number : Nat) : List Value → Except Misfit (List Json)
  | [] => .ok []
  | .absent :: _ => .error (.absentItem (place.child (toString number)))
  | item :: rest => do
      let first ← normal (place.child (toString number)) item
      let others ← normalItems place (number + 1) rest
      return first :: others

/-- The normal forms of fields; a field that holds no value is dropped. -/
def normalFields (place : Location) :
    List (String × Value) → Except Misfit (List (String × Json))
  | [] => .ok []
  | (_, .absent) :: rest => normalFields place rest
  | (key, value) :: rest => do
      let first ← normal (place.child key) value
      let others ← normalFields place rest
      return (key, first) :: others
end

/-- What a message calls the kind of a value that is not an object. -/
def shapeName : Value → String
  | .array _ => "array"
  | .scalar .null => "null"
  | value => value.kindName

/-- The normal form of a value that has to be an object. -/
def normalObject (label : String) (value : Value) : Except Misfit Json :=
  if value.isObject then normal ⟨"", []⟩ value
  else .error (.notObject label (shapeName value))

/-- The normal form of a query. -/
def normalQuery (value : Value) : Except Misfit Json :=
  normalObject "Query" value

end DocStore.Caller
