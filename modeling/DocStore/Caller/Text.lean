import DocStore.Calendar
import DocStore.Caller.View
/-!
# The text form of a caller's value

The text form writes an array as the text forms of its items with commas between them and every
other object by the name of its kind.  It does not exist for an object that inherits nothing, nor
for an array that holds one or a mark.  An array inside itself is written as nothing.

An object may decide its own text form by functions in fields of certain names.  The functions of
callers all give the number one, which is then what such an object is written as.
-/

set_option autoImplicit false

namespace DocStore.Caller

/-- Whether a field holds a function. -/
def holdsFunction (key : String) (fields : List (String × Value)) : Bool :=
  match fields.lookup key with
  | some .function => true
  | _ => false

/-- Whether a value is a mark. -/
def isSymbol : Value → Bool
  | .symbol _ => true
  | _ => false

/-- The text form of an object that inherits and decides nothing. -/
def objectText : String := "[object Object]"

/-- The names of the functions that every object inherits. -/
def inheritedFunctions : List String :=
  ["hasOwnProperty", "isPrototypeOf", "propertyIsEnumerable", "toLocaleString", "toString",
    "valueOf", "__defineGetter__", "__defineSetter__", "__lookupGetter__", "__lookupSetter__"]

/-- The text form of a function that is built in. -/
def builtInText (name : String) : String :=
  "function " ++ name ++ "() \x7b [native code] \x7d"

/-- The text form of what every object inherits under a name, if there is something. -/
def inheritedText? (name : String) : Option String :=
  if name = "constructor" then some (builtInText "Object")
  else if name = "__proto__" then some objectText
  else if inheritedFunctions.contains name then some (builtInText name)
  else none

/-- The text form of an object.  The first of two fields that is a function decides it; an object
that inherits has the function of the first one by inheritance, unless it has a field of that name.
-/
def objectText? (bare : Bool) (fields : List (String × Value)) : Option String :=
  if holdsFunction "toString" fields then some "1"
  else if !bare && (fields.lookup "toString").isNone then some objectText
  else if holdsFunction "valueOf" fields then some "1"
  else none

namespace View

/-- The text form of a view, as far as it is settled within a depth; `writing` are the positions of
the arrays that it is written in. -/
def textWithin? : Nat → List (List Nat) → View → Option String
  | 0, _, _ => none
  | depth + 1, writing, view =>
      match view.value with
      | .absent => some "undefined"
      | .scalar .null => some "null"
      | .scalar (.boolean value) => some (if value then "true" else "false")
      | .scalar (.number value) => some value.text
      | .scalar (.string value) => some value
      | .integer value => some (toString value)
      | .symbol description => some ("Symbol(" ++ description ++ ")")
      | .function => some "() => 1"
      | .array _ =>
          if writing.contains view.position then some ""
          else do
            let parts ← view.items.mapM fun item =>
              if item.value.isMissing then some ""
              else if isSymbol item.value then none
              else textWithin? depth (view.position :: writing) item
            return String.intercalate "," parts
      | .object bare fields => objectText? bare fields
      | .date (some moment) => some (Calendar.longText moment)
      | .date none => some "Invalid Date"
      | .table => some "[object Map]"
      | .instanceOf _ | .enclosing _ => some objectText

/-- The text form of a view.  There are no more arrays to be written than parts of the whole. -/
def text? (view : View) : Option String :=
  view.textWithin? (view.wholeSize + 1) []

/-- The text of a view inside another text, where a mark has none. -/
def shown? (view : View) : Option String :=
  if isSymbol view.value then none else view.text?

end View

/-- The text form of a value that nothing is around. -/
def text? (value : Value) : Option String :=
  (View.ofValue value).text?

end DocStore.Caller
