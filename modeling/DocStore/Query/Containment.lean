import DocStore.Json.Tree
/-!
# Containment queries

A tree contains a query when the structure of the query is present in it: an object has every key
of the query's object, under which its value contains the query's value; every item of the query's
array is contained in some item of the array, so that one item may serve several wanted ones; and
leaves are compared by a given sameness.  Trees of different kinds do not contain each other.

`contains_array` and `contains_object` state these rules without recursion over lists.
-/

set_option autoImplicit false

namespace DocStore.Tree

variable {α : Type}

mutual
/-- Whether a tree contains a query. -/
def containsBy (same : α → α → Bool) (tree : Tree α) : Tree α → Bool
  | .leaf wanted =>
      match tree with
      | .leaf value => same value wanted
      | _ => false
  | .array wanted =>
      match tree with
      | .array items => containsItems same items wanted
      | _ => false
  | .object wanted =>
      match tree with
      | .object fields => containsFields same fields wanted
      | _ => false

/-- Whether every wanted item is contained in some item. -/
def containsItems (same : α → α → Bool) (items : List (Tree α)) : List (Tree α) → Bool
  | [] => true
  | wanted :: rest =>
      items.any (fun item => containsBy same item wanted) && containsItems same items rest

/-- Whether every wanted field is contained in the field of its key. -/
def containsFields (same : α → α → Bool) (fields : List (String × Tree α)) :
    List (String × Tree α) → Bool
  | [] => true
  | (key, wanted) :: rest =>
      (match fields.lookup key with
        | some value => containsBy same value wanted
        | none => false)
      && containsFields same fields rest
end

theorem contains_array (same : α → α → Bool) (items wanted : List (Tree α)) :
    containsBy same (.array items) (.array wanted)
      = wanted.all fun query => items.any fun item => containsBy same item query := by
  rw [containsBy]
  induction wanted with
  | nil => rfl
  | cons query rest ih => rw [containsItems, ih, List.all_cons]

theorem contains_object (same : α → α → Bool) (fields wanted : List (String × Tree α)) :
    containsBy same (.object fields) (.object wanted)
      = wanted.all fun query =>
          match fields.lookup query.1 with
          | some value => containsBy same value query.2
          | none => false := by
  rw [containsBy]
  induction wanted with
  | nil => rfl
  | cons query rest ih => rw [containsFields, ih, List.all_cons]

end DocStore.Tree

namespace DocStore.Json

/-- Whether a JSON value contains a query. -/
def contains (value query : Json) : Bool :=
  Tree.containsBy Scalar.same value query

end DocStore.Json
