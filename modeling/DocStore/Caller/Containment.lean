import DocStore.Caller.View
/-!
# Containment of caller values

A caller's value contains a query by the rules for JSON, as far as they apply: an object has every
key of the query's object under which its value contains the query's value, every item of the
query's array is contained in some item, and other values are compared.  Equal scalars, equal whole
numbers and two missing values are the same; marks, functions and undefined numbers are the same as
nothing.  A field that holds no value counts as missing.

References to containers around them are followed on both sides, so a value may be searched without
end.  A search that goes deeper than there are pairs of parts meets the same pair twice and has no
end.
-/

set_option autoImplicit false

namespace DocStore.Caller

/-- Whether two values that are no containers are the same. -/
def sameLeaf : Value → Value → Bool
  | .scalar value, .scalar value' => value.same value'
  | .integer value, .integer value' => value == value'
  | .absent, .absent => true
  | _, _ => false

/-- Whether a view contains the query of another; nothing where that is not settled at a given
depth. -/
def containsAt : Nat → View → View → Option Bool
  | 0, _, _ => none
  | depth + 1, view, query =>
      match query.value, view.value with
      | .array _, .array _ =>
          let items := view.items
          query.items.allM fun want => items.anyM fun item => containsAt depth item want
      | .array _, _ => some false
      | wanted, value =>
          if wanted.isObject then
            if value.isObject then
              query.fields.allM fun (key, want) =>
                match view.field? key with
                | none | some ⟨.absent, _⟩ => some false
                | some held => containsAt depth held want
            else some false
          else some (sameLeaf value wanted)

/-- Whether a caller's value contains a query; nothing where the search has no end. -/
def contains? (value query : Value) : Option Bool :=
  containsAt (value.size * query.size + 1) (.ofValue value) (.ofValue query)

end DocStore.Caller
