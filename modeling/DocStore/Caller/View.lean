import DocStore.Caller.Value
/-!
# Values where they stand

A reference to a container can only be followed from where it stands.  A view is a value together
with the containers around it; the parts of a view are views again, and a part that is a reference
is the container that it refers to.  Two views of the same whole are views of the same container
exactly when they have the same position.
-/

set_option autoImplicit false

namespace DocStore.Caller

mutual
/-- How many parts a value has, itself included. -/
def Value.size : Value → Nat
  | .array items => 1 + itemsSize items
  | .object _ fields => 1 + fieldsSize fields
  | _ => 1

/-- How many parts items have. -/
def itemsSize : List Value → Nat
  | [] => 0
  | item :: rest => item.size + itemsSize rest

/-- How many parts the values of fields have. -/
def fieldsSize : List (String × Value) → Nat
  | [] => 0
  | (_, value) :: rest => value.size + fieldsSize rest
end

/-- A value and where it stands. -/
structure View where
  /-- The value. -/
  value : Value
  /-- The containers around the value, the nearest first, each with the number of the part of it
  that leads to the value. -/
  around : List (Value × Nat)

namespace View

/-- A value that nothing is around. -/
def ofValue (value : Value) : View := ⟨value, []⟩

/-- The view of the container that a reference refers to; any other view stays as it is. -/
def follow (view : View) : View :=
  match view.value with
  | .enclosing levels =>
      match view.around.drop (levels - 1) with
      | (container, _) :: around => ⟨container, around⟩
      | [] => view
  | _ => view

/-- The view of a part of the value of a view. -/
def inner (view : View) (number : Nat) (part : Value) : View :=
  follow ⟨part, (view.value, number) :: view.around⟩

/-- Where a view stands in the whole: the numbers of the parts that lead to it, the last first. -/
def position (view : View) : List Nat :=
  view.around.map Prod.snd

/-- How many parts the whole has that a view stands in. -/
def wholeSize (view : View) : Nat :=
  match view.around.getLast? with
  | some (whole, _) => whole.size
  | none => view.value.size

/-- The items of an array. -/
def items (view : View) : List View :=
  match view.value with
  | .array items => items.mapIdx view.inner
  | _ => []

/-- The fields of an object. -/
def fields (view : View) : List (String × View) :=
  view.value.fields.mapIdx fun number field => (field.1, view.inner number field.2)

/-- The field of a key; one without a value is found like any other. -/
def field? (view : View) (key : String) : Option View :=
  view.fields.lookup key

/-- The field of a key, which holds no value where there is none. -/
def field (view : View) (key : String) : View :=
  (view.field? key).getD (ofValue .absent)

/-- What a value holds of its own, each part under its key; null and no value hold nothing that
could be listed. -/
def entries? (view : View) : Option (List (String × View)) :=
  match view.value with
  | .absent | .scalar .null => none
  | .array _ => some (view.items.mapIdx fun number item => (toString number, item))
  | .scalar (.string text) =>
      some ((Text.unitTexts text).mapIdx fun number unit =>
        (toString number, ofValue (.ofString unit)))
  | _ => some view.fields

/-- What a value holds of its own under a key: a field, or an item or unit of a sequence under its
number.  Sequences hold their length as well, and functions the number of their arguments and
their name. -/
def own? (view : View) (key : String) : Option Value :=
  match view.value with
  | .array items =>
      if key = "length" then some (.scalar (.number (.ofNat items.length)))
      else ((Fields.indexKey? key).bind fun number => view.items[number]?).map View.value
  | .scalar (.string text) =>
      if key = "length" then some (.scalar (.number (.ofNat (Text.length text))))
      else ((Fields.indexKey? key).bind fun number => (Text.unitTexts text)[number]?).map
        Value.ofString
  | .function =>
      if key = "length" then some (.scalar (.number .zero))
      else if key = "name" then some (.ofString "")
      else none
  | _ => (view.field? key).map View.value

end View

end DocStore.Caller
