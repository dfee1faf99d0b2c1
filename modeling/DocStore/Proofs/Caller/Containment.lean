import DocStore.Caller.Containment
import DocStore.Proofs.Json.WellFormed
import DocStore.Query.Containment
import Mathlib.Data.List.Forall2
/-!
# Containment of JSON values that callers pass in

A JSON value holds no references, so the search for a query in it comes to an end, and it finds what
containment of JSON says (`contains?_ofJson`).
-/

set_option autoImplicit false

namespace DocStore.Caller

/-! ## JSON values as values of callers -/

theorem ofJsonItems_eq_map (items : List Json) : ofJsonItems items = items.map ofJson := by
  induction items with
  | nil => rfl
  | cons item rest ih => simp only [ofJsonItems, ih, List.map_cons]

theorem ofJsonFields_eq_map (fields : List (String × Json)) :
    ofJsonFields fields = fields.map fun field => (field.1, ofJson field.2) := by
  induction fields with
  | nil => rfl
  | cons field rest ih => simp only [ofJsonFields, ih, List.map_cons]

@[simp] theorem ofJson_array (items : List Json) :
    ofJson (.array items) = .array (items.map ofJson) := by
  rw [ofJson, ofJsonItems_eq_map]

@[simp] theorem ofJson_object (fields : List (String × Json)) :
    ofJson (.object fields)
      = .object false (fields.map fun field => (field.1, ofJson field.2)) := by
  rw [ofJson, ofJsonFields_eq_map]

@[simp] theorem ofJson_leaf (value : Scalar) : ofJson (.leaf value) = .scalar value := rfl

theorem size_le_itemsSize {items : List Value} {item : Value} (member : item ∈ items) :
    item.size ≤ itemsSize items := by
  induction items with
  | nil => simp at member
  | cons head rest ih =>
      rcases List.mem_cons.mp member with rfl | later
      · simp only [itemsSize]; omega
      · have := ih later
        simp only [itemsSize]; omega

theorem size_lt_of_mem_items {items : List Value} {item : Value} (member : item ∈ items) :
    item.size < (Value.array items).size := by
  have := size_le_itemsSize member
  simp only [Value.size]
  omega

theorem size_le_fieldsSize {fields : List (String × Value)} {field : String × Value}
    (member : field ∈ fields) : field.2.size ≤ fieldsSize fields := by
  induction fields with
  | nil => simp at member
  | cons head rest ih =>
      rcases List.mem_cons.mp member with rfl | later
      · simp only [fieldsSize]; omega
      · have := ih later
        simp only [fieldsSize]; omega

theorem size_lt_of_mem_fields {bare : Bool} {fields : List (String × Value)}
    {field : String × Value} (member : field ∈ fields) :
    field.2.size < (Value.object bare fields).size := by
  have := size_le_fieldsSize member
  simp only [Value.size]
  omega

/-! ## Views of JSON values -/

/-- A view of a JSON value. -/
def Shows (view : View) (value : Json) : Prop := view.value = ofJson value

/-- A part of a JSON value is no reference, so its view is a view of it. -/
theorem shows_inner (view : View) (number : Nat) (part : Json) :
    Shows (view.inner number (ofJson part)) part := by
  cases part <;> simp [Shows, View.inner, View.follow]

theorem forall₂_mapIdx {β γ δ : Type} {related : γ → δ → Prop} (list : List δ) (value : δ → β) :
    ∀ make : Nat → β → γ, (∀ number item, related (make number (value item)) item) →
      List.Forall₂ related ((list.map value).mapIdx make) list := by
  induction list with
  | nil => intro make _; simp
  | cons item rest ih =>
      intro make each
      rw [List.map_cons, List.mapIdx_cons]
      exact .cons (each 0 item) (ih (fun number => make (number + 1)) fun number => each _)

theorem shows_items {view : View} {items : List Json} (shown : Shows view (.array items)) :
    List.Forall₂ Shows view.items items := by
  have value : view.value = .array (items.map ofJson) := shown.trans (ofJson_array items)
  simp only [View.items, value]
  exact forall₂_mapIdx items ofJson _ fun number item => shows_inner view number item

theorem shows_fields {view : View} {fields : List (String × Json)}
    (shown : Shows view (.object fields)) :
    List.Forall₂ (fun part field => part.1 = field.1 ∧ Shows part.2 field.2)
      view.fields fields := by
  have value : view.value.fields = fields.map fun field => (field.1, ofJson field.2) := by
    rw [shown, ofJson_object]; rfl
  simp only [View.fields, value]
  exact forall₂_mapIdx fields _ _ fun number field =>
    ⟨rfl, shows_inner view number field.2⟩

/-- What an object holds under a key is shown by what its view holds under the key. -/
theorem shows_lookup {parts : List (String × View)} {fields : List (String × Json)}
    (shown : List.Forall₂ (fun part field => part.1 = field.1 ∧ Shows part.2 field.2)
      parts fields) (key : String) :
    (parts.lookup key = none ∧ fields.lookup key = none)
      ∨ ∃ part value, parts.lookup key = some part ∧ fields.lookup key = some value
          ∧ Shows part value := by
  induction shown with
  | nil => exact .inl ⟨rfl, rfl⟩
  | @cons part field parts fields here _ ih =>
      obtain ⟨name, part⟩ := part
      obtain ⟨name', value⟩ := field
      obtain ⟨rfl, here⟩ := here
      by_cases same : key = name
      · exact .inr ⟨part, value, by simp [same], by simp [same], here⟩
      · simpa [List.lookup_cons, beq_eq_false_iff_ne.mpr same] using ih

/-! ## The search -/

theorem allM_eq_some {β γ : Type} {related : β → γ → Prop} {parts : List β} {list : List γ}
    (shown : List.Forall₂ related parts list) {search : β → Option Bool} {found : γ → Bool}
    (each : ∀ part, ∀ item ∈ list, related part item → search part = some (found item)) :
    parts.allM search = some (list.all found) := by
  induction shown with
  | nil => rfl
  | @cons part item parts list here _ ih =>
      have rest := ih fun part item member => each part item (List.mem_cons_of_mem _ member)
      rw [List.allM, each part item List.mem_cons_self here, List.all_cons]
      cases found item <;> simp [rest]

theorem anyM_eq_some {β γ : Type} {related : β → γ → Prop} {parts : List β} {list : List γ}
    (shown : List.Forall₂ related parts list) {search : β → Option Bool} {found : γ → Bool}
    (each : ∀ part, ∀ item ∈ list, related part item → search part = some (found item)) :
    parts.anyM search = some (list.any found) := by
  induction shown with
  | nil => rfl
  | @cons part item parts list here _ ih =>
      have rest := ih fun part item member => each part item (List.mem_cons_of_mem _ member)
      rw [List.anyM, each part item List.mem_cons_self here, List.any_cons]
      cases found item <;> simp [rest]

/-- The search finds what containment says, at any depth that the query does not exceed. -/
theorem containsAt_eq (query : Json) :
    ∀ (depth : Nat) (document : Json) {view wanted : View}, Shows view document →
      Shows wanted query → (ofJson query).size ≤ depth →
      containsAt depth view wanted = some (Json.contains document query) := by
  induction query using Tree.induct with
  | leaf value =>
      intro depth document view wanted shown shown' enough
      cases depth with
      | zero => simp [Value.size] at enough
      | succ depth =>
          unfold Shows at shown shown'
          cases document <;>
            simp [containsAt, shown, shown', Value.isObject, sameLeaf, Json.contains,
              Tree.containsBy]
  | array items ih =>
      intro depth document view wanted shown shown' enough
      cases depth with
      | zero => simp [Value.size] at enough
      | succ depth =>
          have shownItems := shows_items shown'
          unfold Shows at shown'
          cases document with
          | leaf value =>
              unfold Shows at shown
              simp [containsAt, shown, shown', Json.contains, Tree.containsBy]
          | object fields =>
              unfold Shows at shown
              simp [containsAt, shown, shown', Json.contains, Tree.containsBy]
          | array items' =>
              have shownItems' := shows_items shown
              unfold Shows at shown
              simp only [containsAt, shown, shown', ofJson_array, Json.contains,
                Tree.contains_array]
              refine allM_eq_some shownItems fun part item member here => ?_
              refine anyM_eq_some shownItems' fun part' item' _ here' => ?_
              have smaller := size_lt_of_mem_items (List.mem_map_of_mem (f := ofJson) member)
              rw [ofJson_array] at enough
              exact ih item member depth item' here' here (by omega)
  | object fields ih =>
      intro depth document view wanted shown shown' enough
      cases depth with
      | zero => simp [Value.size] at enough
      | succ depth =>
          have shownFields := shows_fields shown'
          unfold Shows at shown'
          cases document with
          | leaf value =>
              unfold Shows at shown
              simp [containsAt, shown, shown', Value.isObject, Json.contains, Tree.containsBy]
          | array items =>
              unfold Shows at shown
              simp [containsAt, shown, shown', Value.isObject, Json.contains, Tree.containsBy]
          | object fields' =>
              have shownFields' := shows_fields shown
              unfold Shows at shown
              simp only [containsAt, shown, shown', ofJson_object, Value.isObject, if_true,
                Json.contains, Tree.contains_object]
              refine allM_eq_some shownFields fun part field member here => ?_
              obtain ⟨key, part⟩ := part
              obtain ⟨rfl, here⟩ := here
              rcases shows_lookup shownFields' field.1 with ⟨absent, absent'⟩ | ⟨part', value,
                present, present', here'⟩
              · simp [View.field?, absent, absent']
              · have member' := List.mem_map_of_mem (f := fun field : String × Json =>
                  (field.1, ofJson field.2)) member
                have smaller : (ofJson field.2).size < (Value.object false _).size :=
                  size_lt_of_mem_fields member'
                rw [ofJson_object] at enough
                have found := ih field member depth value here' here (by omega)
                have notAbsent : part'.value ≠ .absent := by
                  rw [here']; cases value <;> simp
                simp only [View.field?, present, present']
                obtain ⟨held, around⟩ := part'
                cases held <;> first | exact absurd rfl notAbsent | exact found

/-- The search for a JSON query in a JSON value ends, with what containment says. -/
theorem contains?_ofJson (document query : Json) :
    contains? (ofJson document) (ofJson query) = some (Json.contains document query) := by
  refine containsAt_eq query _ document rfl rfl ?_
  have positive : 1 ≤ (ofJson document).size := by
    cases document <;> simp [Value.size]
  have := Nat.mul_le_mul_right (ofJson query).size positive
  omega

end DocStore.Caller
