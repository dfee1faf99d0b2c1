import DocStore.Json.Fields
import DocStore.Json.Printer
import DocStore.Text.Units
/-!
# Canonical text

The canonical text of a value does not depend on the order in which its objects list their keys.
Every object is arranged by a key order before it is written: listed keys first, by their place in
the list, and all others in the order of their units.  The arranged object then lists its fields as
every object does, number-like keys first.  `arrange_leaf`, `arrange_array` and `arrange_object` are
the rules of the arrangement.
-/

set_option autoImplicit false

namespace DocStore.Json

/-- An order of the keys of an object. -/
inductive KeyOrder where
  /-- By the units of the keys. -/
  | alphabetical
  /-- The listed keys first, by their first place in the list, then the others by their units. -/
  | listed (keys : List String)

namespace KeyOrder

/-- The order of stored documents: the identifier first. -/
def document : KeyOrder := listed ["_id"]

/-- The order that a value stands for: a list of keys for those keys first, a word for the order of
stored documents, and anything else for the order by units. -/
def ofJson : Json → KeyOrder
  | .array keys => listed (keys.filterMap Json.string?)
  | .leaf (.string "document") => document
  | _ => alphabetical

/-- Whether a key comes strictly before another. -/
def before (order : KeyOrder) (first second : String) : Bool :=
  match order with
  | alphabetical => Text.before first second
  | listed keys =>
      match keys.idxOf? first, keys.idxOf? second with
      | some place, some place' => decide (place < place')
      | some _, none => true
      | none, some _ => false
      | none, none => Text.before first second

/-- The fields of an object that was filled in the order of its keys. -/
def fields {β : Type} (order : KeyOrder) (fields : List (String × β)) : List (String × β) :=
  Fields.inKeyOrder (Sorting.sort (fun first second => order.before first.1 second.1) fields)

end KeyOrder

mutual
/-- The value with every object filled in the order of its keys. -/
def arrange (order : KeyOrder) : Tree Scalar → Tree Scalar
  | .leaf value => .leaf value
  | .array items => .array (arrangeItems order items)
  | .object fields => .object (order.fields (arrangeFields order fields))

/-- The items of an array, each arranged. -/
def arrangeItems (order : KeyOrder) : List (Tree Scalar) → List (Tree Scalar)
  | [] => []
  | item :: rest => arrange order item :: arrangeItems order rest

/-- The fields of an object in their old order, each value arranged. -/
def arrangeFields (order : KeyOrder) : List (String × Tree Scalar) → List (String × Tree Scalar)
  | [] => []
  | (key, value) :: rest => (key, arrange order value) :: arrangeFields order rest
end

theorem arrangeItems_eq_map (order : KeyOrder) (items : List Json) :
    arrangeItems order items = items.map (arrange order) := by
  induction items with
  | nil => rfl
  | cons item rest ih => simp [arrangeItems, ih]

theorem arrangeFields_eq_map (order : KeyOrder) (fields : List (String × Json)) :
    arrangeFields order fields = fields.map fun field => (field.1, arrange order field.2) := by
  induction fields with
  | nil => rfl
  | cons field rest ih => simp [arrangeFields, ih]

@[simp] theorem arrange_leaf (order : KeyOrder) (value : Scalar) :
    arrange order (.leaf value) = .leaf value := rfl

@[simp] theorem arrange_array (order : KeyOrder) (items : List Json) :
    arrange order (.array items) = .array (items.map (arrange order)) := by
  rw [arrange, arrangeItems_eq_map]

@[simp] theorem arrange_object (order : KeyOrder) (fields : List (String × Json)) :
    arrange order (.object fields)
      = .object (order.fields (fields.map fun field => (field.1, arrange order field.2))) := by
  rw [arrange, arrangeFields_eq_map]

/-- The canonical text of a value, which ends with a line break. -/
def canonicalText (layout : Layout) (order : KeyOrder) (value : Json) : String :=
  text layout (arrange order value) ++ "\n"

end DocStore.Json
