import DocStore.Proofs.Json.RoundTrip
import DocStore.Proofs.Query.Preorder
/-!
# Values as they come back from a file

A value that has been written in canonical form and read again has settled: its objects list their
keys in the order in which they were written, and its zeros have no sign.  Settling does not change
what is found under a key (`field?_settled`), which queries are contained (`contains_settled`), or
the canonical text (`canonicalText_settled`).
-/

set_option autoImplicit false

namespace DocStore.Json

/-- A value as it comes back from its canonical text. -/
def settled (order : KeyOrder) (value : Json) : Json := unsigned (arrange order value)

section

variable (order : KeyOrder)

@[simp] theorem settled_leaf (value : Scalar) :
    settled order (.leaf value) = .leaf value.unsigned := rfl

@[simp] theorem settled_array (items : List Json) :
    settled order (.array items) = .array (items.map (settled order)) := by
  rw [settled, arrange_array, unsigned_array, List.map_map]
  rfl

@[simp] theorem settled_object (fields : List (String × Json)) :
    settled order (.object fields)
      = .object ((order.fields fields).map fun field => (field.1, settled order field.2)) := by
  rw [settled, arrange_object, unsigned_object, KeyOrder.fields_map, List.map_map]
  rfl

theorem wellFormed_settled {value : Json} (wellFormed : WellFormed value) :
    WellFormed (settled order value) := by
  induction wellFormed with
  | @leaf value finite =>
      refine .leaf ?_
      cases value with
      | number value => cases value <;> first | rfl | exact finite
      | null | boolean _ | string _ => exact trivial
  | array _ ih =>
      rw [settled_array]
      refine .array fun item member => ?_
      obtain ⟨item, inItems, rfl⟩ := List.mem_map.mp member
      exact ih item inItems
  | object distinct _ ih =>
      rw [settled_object]
      refine .object ?_ fun field member => ?_
      · rw [Lookup.map_fst_map]
        exact KeyOrder.nodup_fields.mpr distinct
      · obtain ⟨field, inFields, rfl⟩ := List.mem_map.mp member
        exact ih field (KeyOrder.mem_fields.mp inFields)

theorem lookup_settled {fields : List (String × Json)} (distinct : (fields.map Prod.fst).Nodup)
    (key : String) :
    ((order.fields fields).map fun field => (field.1, settled order field.2)).lookup key
      = (fields.lookup key).map (settled order) := by
  rw [Lookup.lookup_map, Lookup.lookup_eq_of_perm (order.fields_perm fields)
    (KeyOrder.nodup_fields.mpr distinct)]

/-- A settled value holds under each key what the value held, settled. -/
theorem field?_settled {value : Json} (wellFormed : WellFormed value) (key : String) :
    (settled order value).field? key = (value.field? key).map (settled order) := by
  cases wellFormed with
  | leaf _ => rfl
  | array _ => rw [settled_array]; rfl
  | object distinct _ => rw [settled_object]; exact lookup_settled order distinct key

theorem string?_settled (value : Json) : string? (settled order value) = string? value := by
  cases value with
  | leaf value => cases value <;> rfl
  | array items => rw [settled_array]; rfl
  | object fields => rw [settled_object]; rfl

/-! ## Containment -/

theorem same_unsigned (value : Scalar) (finite : value.IsFinite) :
    value.same value.unsigned = true ∧ value.unsigned.same value = true := by
  cases value with
  | null | boolean _ | string _ => exact ⟨Scalar.same_refl finite, Scalar.same_refl finite⟩
  | number value =>
      cases value with
      | infinite _ => exact absurd finite (by simp [Scalar.IsFinite, Number.isFinite])
      | undefined => exact absurd finite (by simp [Scalar.IsFinite, Number.isFinite])
      | finite negative magnitude =>
          by_cases zero : magnitude.steps = 0 <;>
            simp [Scalar.same, Scalar.unsigned, Number.unsigned, Number.same, zero]

/-- A value and what it settles to contain each other. -/
theorem contains_settled_self {value : Json} (wellFormed : WellFormed value) :
    contains value (settled order value) = true ∧ contains (settled order value) value = true := by
  induction wellFormed with
  | leaf finite => exact same_unsigned _ finite
  | array _ ih =>
      rw [settled_array, contains_array_iff, contains_array_iff]
      refine ⟨fun item member => ?_, fun item member => ?_⟩
      · obtain ⟨item, inItems, rfl⟩ := List.mem_map.mp member
        exact ⟨item, inItems, (ih item inItems).1⟩
      · exact ⟨settled order item, List.mem_map_of_mem member, (ih item member).2⟩
  | @object fields distinct _ ih =>
      rw [settled_object, contains_object_iff, contains_object_iff]
      refine ⟨fun field member => ?_, fun field member => ?_⟩
      · obtain ⟨field, inFields, rfl⟩ := List.mem_map.mp member
        have inFields := KeyOrder.mem_fields.mp inFields
        exact ⟨field.2, (Lookup.lookup_eq_some_iff distinct).mpr inFields, (ih field inFields).1⟩
      · refine ⟨settled order field.2, ?_, (ih field member).2⟩
        rw [lookup_settled order distinct, (Lookup.lookup_eq_some_iff distinct).mpr member]
        rfl

/-- A settled document contains the queries that the document contains. -/
theorem contains_settled {document : Json} (wellFormed : WellFormed document) (query : Json) :
    contains (settled order document) query = contains document query := by
  obtain ⟨holds, held⟩ := contains_settled_self order wellFormed
  rw [Bool.eq_iff_iff]
  exact ⟨contains_trans holds, contains_trans held⟩

/-! ## Canonical text -/

theorem fields_fields {β : Type} {fields : List (String × β)}
    (distinct : (fields.map Prod.fst).Nodup) :
    order.fields (order.fields fields) = order.fields fields :=
  order.fields_eq_of_perm (KeyOrder.nodup_fields.mpr distinct) (order.fields_perm fields)

theorem arrange_settled {value : Json} (wellFormed : WellFormed value) :
    arrange order (settled order value) = settled order value := by
  induction wellFormed with
  | leaf _ => rfl
  | array _ ih =>
      rw [settled_array, arrange_array, List.map_map]
      exact congrArg _ (List.map_congr_left fun item member => ih item member)
  | object distinct _ ih =>
      rw [settled_object, arrange_object, List.map_map]
      have each (fields : List (String × Json)) (inside : ∀ field ∈ fields, field ∈ _) :
          fields.map ((fun field => (field.1, arrange order field.2))
            ∘ fun field => (field.1, settled order field.2))
          = fields.map fun field => (field.1, settled order field.2) :=
        List.map_congr_left fun field member => congrArg _ (ih field (inside field member))
      rw [each _ fun field member => KeyOrder.mem_fields.mp member, KeyOrder.fields_map,
        fields_fields order distinct]

end

section

variable (layout : Layout)

theorem scalarChars_unsigned (value : Scalar) : scalarChars value.unsigned = scalarChars value := by
  cases value with
  | null | boolean _ | string _ => rfl
  | number value =>
      cases value with
      | infinite _ | undefined => rfl
      | finite negative magnitude =>
          simp [scalarChars, Scalar.unsigned, Number.unsigned, Number.isFinite, Number.chars]

mutual
/-- The sign of a zero is not written. -/
theorem chars_unsigned (depth : Nat) : ∀ value : Tree Scalar,
    chars layout depth (unsigned value) = chars layout depth value
  | .leaf value => scalarChars_unsigned value
  | .array [] => rfl
  | .array (first :: rest) => by
      rw [unsigned, unsignedItems, chars, chars, chars_unsigned (depth + 1) first,
        itemsChars_unsigned (depth + 1) rest]
  | .object [] => rfl
  | .object ((key, first) :: rest) => by
      rw [unsigned, unsignedFields, chars, chars, chars_unsigned (depth + 1) first,
        fieldsChars_unsigned (depth + 1) rest]

/-- The same of items after the first. -/
theorem itemsChars_unsigned (depth : Nat) : ∀ items : List (Tree Scalar),
    itemsChars layout depth (unsignedItems items) = itemsChars layout depth items
  | [] => rfl
  | item :: rest => by
      rw [unsignedItems, itemsChars, itemsChars, chars_unsigned depth item,
        itemsChars_unsigned depth rest]

/-- The same of fields after the first. -/
theorem fieldsChars_unsigned (depth : Nat) : ∀ fields : List (String × Tree Scalar),
    fieldsChars layout depth (unsignedFields fields) = fieldsChars layout depth fields
  | [] => rfl
  | (key, value) :: rest => by
      rw [unsignedFields, fieldsChars, fieldsChars, chars_unsigned depth value,
        fieldsChars_unsigned depth rest]
end

/-- A settled value has the canonical text of the value. -/
theorem canonicalText_settled (order : KeyOrder) {value : Json} (wellFormed : WellFormed value) :
    canonicalText layout order (settled order value) = canonicalText layout order value := by
  rw [canonicalText, canonicalText, arrange_settled order wellFormed, text_eq, text_eq, settled,
    chars_unsigned]

end

end DocStore.Json

/-!
## Values that are alike

Two values are alike when they are equal up to the order in which objects list their keys, at every
level, and up to the signs of zeros (`Alike`): no key, no item and no scalar of one is missing from
the other, altered or repeated.

A value is alike to what it settles to (`alike_settled`), so the canonical text of a value is read
back as a value that is alike, whatever the indentation and the order of keys
(`parse?_canonicalText_alike`).
-/

namespace DocStore.Json

/-- Equality up to the order of keys in objects and up to the signs of zeros. -/
inductive Alike : Json → Json → Prop where
  | leaf {value value' : Scalar} (same : value.same value' = true) :
      Alike (.leaf value) (.leaf value')
  | array {items items' : List Json} (sameLength : items.length = items'.length)
      (each : ∀ (place : Nat) (item item' : Json), items[place]? = some item →
        items'[place]? = some item' → Alike item item') :
      Alike (.array items) (.array items')
  | object {fields fields' : List (String × Json)}
      (sameKeys : (fields.map Prod.fst).Perm (fields'.map Prod.fst))
      (each : ∀ (key : String) (value value' : Json), fields.lookup key = some value →
        fields'.lookup key = some value' → Alike value value') :
      Alike (.object fields) (.object fields')

theorem Alike.refl {value : Json} (wellFormed : WellFormed value) : Alike value value := by
  induction wellFormed with
  | leaf finite => exact .leaf (Scalar.same_refl finite)
  | array _ ih =>
      refine .array rfl fun place item item' found found' => ?_
      obtain rfl : item = item' := Option.some.inj (found.symm.trans found')
      exact ih item (List.mem_of_getElem? found)
  | object _ _ ih =>
      refine .object (.refl _) fun key value value' found found' => ?_
      obtain rfl : value = value' := Option.some.inj (found.symm.trans found')
      exact ih (key, value) (Lookup.mem_of_lookup found)

/-- Values that are alike are the same text, or both none. -/
theorem Alike.string?_eq {value value' : Json} (alike : Alike value value') :
    string? value = string? value' := by
  cases alike with
  | @leaf scalar scalar' same =>
      cases scalar <;> cases scalar' <;> simp_all [Scalar.same, string?]
  | array _ _ | object _ _ => rfl

/-- Values that are alike hold values that are alike under each key. -/
theorem Alike.field? {value value' : Json} (alike : Alike value value') (key : String) :
    Option.Rel Alike (value.field? key) (value'.field? key) := by
  cases alike with
  | leaf _ | array _ _ => exact .none
  | @object fields fields' sameKeys each =>
      show Option.Rel Alike (fields.lookup key) (fields'.lookup key)
      have sameKey : fields.lookup key = none ↔ fields'.lookup key = none := by
        rw [Lookup.lookup_eq_none_iff, Lookup.lookup_eq_none_iff, sameKeys.mem_iff]
      cases found : fields.lookup key with
      | none =>
          rw [sameKey.mp found]
          exact .none
      | some inner =>
          obtain ⟨inner', found'⟩ := Option.ne_none_iff_exists'.mp
            fun missing => Option.some_ne_none inner (found.symm.trans (sameKey.mpr missing))
          rw [found']
          exact .some (each key inner inner' found found')

/-- A value is alike to what it settles to. -/
theorem alike_settled (order : KeyOrder) {value : Json} (wellFormed : WellFormed value) :
    Alike value (settled order value) := by
  induction wellFormed with
  | leaf finite => exact .leaf (same_unsigned _ finite).1
  | array _ ih =>
      rw [settled_array]
      refine .array (List.length_map _).symm fun place item item' found found' => ?_
      rw [List.getElem?_map, found] at found'
      obtain rfl : settled order item = item' := Option.some.inj found'
      exact ih item (List.mem_of_getElem? found)
  | @object fields distinct _ ih =>
      rw [settled_object]
      refine .object ?_ fun key inner inner' found found' => ?_
      · rw [Lookup.map_fst_map]
        exact ((order.fields_perm fields).map Prod.fst).symm
      · rw [lookup_settled order distinct, found] at found'
        obtain rfl : settled order inner = inner' := Option.some.inj found'
        exact ih (key, inner) (Lookup.mem_of_lookup found)

/-- Whatever the indentation and the order of keys, reading the canonical text of a JSON value
succeeds and gives a JSON value that is alike to it. -/
theorem parse?_canonicalText_alike {value : Json} (wellFormed : WellFormed value) (indent : Number)
    (order : KeyOrder) :
    ∃ back, parse? (canonicalText (.ofNumber indent) order value) = some back
      ∧ WellFormed back ∧ Alike value back :=
  ⟨settled order value, parse?_canonicalText (Layout.blank_ofNumber indent) wellFormed order,
    wellFormed_settled order wellFormed, alike_settled order wellFormed⟩

end DocStore.Json
