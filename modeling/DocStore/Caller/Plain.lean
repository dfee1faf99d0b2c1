import DocStore.Caller.Text
import DocStore.Json.Canonical
/-!
# The JSON form of a caller's value

The JSON form serves messages and output, where nothing is rejected for its kind alone.  It drops
fields without a value or with a function or mark, writes null for such items and for numbers that
are not finite, and writes a moment as its ISO text.  It exists unless the value holds itself or a
whole number of the unbounded kind.

An object may decide its own JSON form by a function in a field of a certain name; the functions of
callers all give the number one.  What else it holds is then not looked at.

An error tells a value in its text and keeps it beside the text, as JSON where it has a place there
(`Shown`).
-/

set_option autoImplicit false

namespace DocStore.Caller

/-- Why a value has no JSON form. -/
inductive Refusal where
  /-- The value holds itself. -/
  | circular
  /-- The value holds a whole number of the unbounded kind. -/
  | unbounded
deriving DecidableEq

mutual
/-- Whether a value refers back to a container around it. -/
def isCircular : Value → Bool
  | .enclosing _ => true
  | .array items => anyItemCircular items
  | .object _ fields => anyFieldCircular fields
  | _ => false

/-- Whether an item refers back. -/
def anyItemCircular : List Value → Bool
  | [] => false
  | item :: rest => isCircular item || anyItemCircular rest

/-- Whether the value of a field refers back. -/
def anyFieldCircular : List (String × Value) → Bool
  | [] => false
  | (_, value) :: rest => isCircular value || anyFieldCircular rest
end

/-- The JSON form of a moment: its text, or null when it has no date. -/
def momentJson : Option Int → Json
  | some moment => Json.string (Calendar.isoText moment)
  | none => Json.null

/-- The JSON form of a moment as an object without fields. -/
def momentShell (_ : Option Int) : Json := .object []

namespace View

/-- The JSON form of a view under a form for moments, as far as it is settled within a depth;
nothing for a value that has no place in JSON.  The containers that it is written in stand at the
positions `writing`. -/
def plainWithin (momentForm : Option Int → Json) :
    Nat → List (List Nat) → View → Except Refusal (Option Json)
  | 0, _, _ => .error .circular
  | depth + 1, writing, view =>
      match view.value with
      | .absent | .symbol _ | .function => .ok none
      | .scalar value => .ok (some (.leaf value))
      | .integer _ => .error .unbounded
      | .date moment => .ok (some (momentForm moment))
      | .table | .instanceOf _ => .ok (some (.object []))
      | .enclosing _ => .error .circular
      | .array _ =>
          if writing.contains view.position then .error .circular
          else do
            let items ← view.items.mapM (plainWithin momentForm depth (view.position :: writing))
            return some (.array (items.map fun item => item.getD Json.null))
      | .object _ fields =>
          if holdsFunction "toJSON" fields then .ok (some (Json.number (.ofNat 1)))
          else if writing.contains view.position then .error .circular
          else do
            let fields ← view.fields.mapM fun (key, part) => do
              let form ← plainWithin momentForm depth (view.position :: writing) part
              return form.map fun form => (key, form)
            return some (.object (fields.filterMap id))

/-- The JSON form of a view under a form for moments.  No more containers are written in each other
than the whole has parts. -/
def plainBy (momentForm : Option Int → Json) (view : View) : Except Refusal (Option Json) :=
  view.plainWithin momentForm (view.wholeSize + 1) []

/-- The JSON form of a view. -/
def plain (view : View) : Except Refusal (Option Json) :=
  view.plainBy momentJson

/-- The JSON text of a view in a layout. -/
def jsonText (view : View) (layout : Json.Layout) : Except Refusal (Option String) := do
  let form ← view.plain
  return form.map (Json.text layout)

end View

/-- The JSON form of a value. -/
def plain (value : Value) : Except Refusal (Option Json) :=
  (View.ofValue value).plain

/-- The JSON text of a value in a layout. -/
def jsonText (layout : Json.Layout) (value : Value) : Except Refusal (Option String) :=
  (View.ofValue value).jsonText layout

/-- The layout for an indentation that a caller gives: by a number of spaces or by a text; any other
value asks for one line. -/
def layoutOf : Value → Json.Layout
  | .scalar (.number indent) => .ofNumber indent
  | .scalar (.string gap) => .ofText gap
  | _ => .line

/-- The canonical text of a caller's value.  Back references are refused before anything else, and
moments count as objects without fields. -/
def canonicalText (layout : Json.Layout) (order : Json.KeyOrder) (value : Value) :
    Except Refusal String :=
  if isCircular value then .error .circular
  else do
    match ← (View.ofValue value).plainBy momentShell with
    | some form => return Json.canonicalText layout order form
    | none => return "undefined\n"

/-- How a message shows a value: its JSON text, or its text form when it has none. -/
def describe? (value : Value) : Option String :=
  match jsonText .line value with
  | .ok (some text) => some text
  | .ok none | .error _ => text? value

/-! ## Values in errors -/

/-- A value as an error shows it. -/
structure Shown where
  /-- How the text of the error tells it. -/
  text : String
  /-- What the error keeps of it. -/
  json : Option Json
deriving DecidableEq

namespace Shown

/-- A text, as an error shows it. -/
def ofString (text : String) : Shown := ⟨text, some (Json.string text)⟩

/-- A number, as an error shows it. -/
def ofNumber (number : Number) : Shown := ⟨number.text, some (Json.number number)⟩

/-- A value, as an error shows it; one without a text form cannot be shown. -/
def ofView? (view : View) : Option Shown :=
  view.shown?.map fun text => ⟨text, view.plain.toOption.join⟩

/-- What errors keep of some values, each under a name. -/
def details (values : List (String × Shown)) : List (String × Json) :=
  values.filterMap fun (name, shown) => shown.json.map fun json => (name, json)

end Shown

end DocStore.Caller
