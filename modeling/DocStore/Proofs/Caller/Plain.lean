import DocStore.Caller.Plain
import DocStore.Proofs.Caller.Containment
import DocStore.Proofs.Json.Canonical
/-!
# Canonical texts of JSON values that callers pass in

A JSON value holds no references and nothing without a place in JSON, so its JSON form is itself
(`plainWithin_ofJson`) and it has the canonical text that its form has (`canonicalText_ofJson`).
Every canonical text is read back (`exists_canonicalText_alike`), and it is the text of just the
values that are alike (`exactly_alike_share_canonicalText`).

The search for containers that hold themselves looks at positions.  A part of a view stands one step
further inside than the view, so it is never found among the containers that it is written in.
-/

set_option autoImplicit false

namespace DocStore.Caller

/-! ## Back references -/

theorem not_isCircular_ofJson (value : Json) : isCircular (ofJson value) = false := by
  induction value using Tree.induct with
  | leaf value => rfl
  | array items ih =>
      rw [ofJson_array, isCircular]
      induction items with
      | nil => rfl
      | cons item rest ihRest =>
          rw [List.map_cons, anyItemCircular, ih item (by simp), Bool.false_or]
          exact ihRest fun other member => ih other (List.mem_cons_of_mem _ member)
  | object fields ih =>
      rw [ofJson_object, isCircular]
      induction fields with
      | nil => rfl
      | cons field rest ihRest =>
          rw [List.map_cons, anyFieldCircular, ih field (by simp), Bool.false_or]
          exact ihRest fun other member => ih other (List.mem_cons_of_mem _ member)

/-! ## The JSON form -/

theorem holdsFunction_ofJson (key : String) (fields : List (String × Json)) :
    holdsFunction key (fields.map fun field => (field.1, ofJson field.2)) = false := by
  rw [holdsFunction, Lookup.lookup_map]
  cases fields.lookup key with
  | none => rfl
  | some value => cases value <;> rfl

/-- A part of a JSON value stands one step further inside. -/
theorem position_inner (view : View) (number : Nat) (part : Json) :
    (view.inner number (ofJson part)).position = number :: view.position := by
  cases part <;> rfl

theorem position_items {view part : View} {items : List Json}
    (shown : Shows view (.array items)) (member : part ∈ view.items) :
    part.position.length = view.position.length + 1 := by
  have value : view.value = .array (items.map ofJson) := shown.trans (ofJson_array items)
  simp only [View.items, value, List.mem_mapIdx] at member
  obtain ⟨number, inside, rfl⟩ := member
  rw [List.getElem_map, position_inner, List.length_cons]

theorem position_fields {view : View} {part : String × View} {fields : List (String × Json)}
    (shown : Shows view (.object fields)) (member : part ∈ view.fields) :
    part.2.position.length = view.position.length + 1 := by
  have value : view.value.fields = fields.map fun field => (field.1, ofJson field.2) := by
    rw [shown, ofJson_object]
    rfl
  simp only [View.fields, value, List.mem_mapIdx] at member
  obtain ⟨number, inside, rfl⟩ := member
  rw [List.getElem_map, position_inner, List.length_cons]

theorem mapM_eq_ok {β γ δ : Type} {related : β → γ → Prop} {parts : List β} {list : List γ}
    (shown : List.Forall₂ related parts list) {make : β → Except Refusal δ} {made : γ → δ}
    (each : ∀ part ∈ parts, ∀ item ∈ list, related part item → make part = .ok (made item)) :
    parts.mapM make = .ok (list.map made) := by
  induction shown with
  | nil => rfl
  | @cons part item parts list here _ ih =>
      have rest := ih fun part inParts item member =>
        each part (List.mem_cons_of_mem _ inParts) item (List.mem_cons_of_mem _ member)
      rw [List.mapM_cons, each part (by simp) item (by simp) here, rest]
      rfl

/-- No container that a view is written in stands where the view stands. -/
theorem not_contains_position {view : View} {writing : List (List Nat)}
    (outside : ∀ position ∈ writing, position.length < view.position.length) :
    writing.contains view.position = false := by
  by_contra found
  have member : view.position ∈ writing := by simpa using found
  exact Nat.lt_irrefl _ (outside _ member)

/-- The JSON form of a JSON value is the value, within any depth that it does not exceed. -/
theorem plainWithin_ofJson (momentForm : Option Int → Json) (value : Json) :
    ∀ (depth : Nat) (writing : List (List Nat)) {view : View}, Shows view value →
      (ofJson value).size ≤ depth →
      (∀ position ∈ writing, position.length < view.position.length) →
      view.plainWithin momentForm depth writing = .ok (some value) := by
  -- Inside a container its own position is added, which is shorter than those of its parts.
  have inside {view part : View} {writing : List (List Nat)}
      (outside : ∀ position ∈ writing, position.length < view.position.length)
      (deeper : part.position.length = view.position.length + 1) :
      ∀ position ∈ view.position :: writing, position.length < part.position.length := by
    intro position member
    rcases List.mem_cons.mp member with rfl | member
    · omega
    · have := outside position member
      omega
  induction value using Tree.induct with
  | leaf value =>
      intro depth writing view shown enough outside
      cases depth with
      | zero => simp [Value.size] at enough
      | succ depth =>
          unfold Shows at shown
          simp [View.plainWithin, shown]
  | array items ih =>
      intro depth writing view shown enough outside
      cases depth with
      | zero => simp [Value.size] at enough
      | succ depth =>
          have form : view.items.mapM (View.plainWithin momentForm depth (view.position :: writing))
              = .ok (items.map some) := by
            refine mapM_eq_ok (shows_items shown) fun part inView item member here => ?_
            have smaller := size_lt_of_mem_items (List.mem_map_of_mem (f := ofJson) member)
            rw [ofJson_array] at enough
            exact ih item member depth _ here (by omega)
              (inside outside (position_items shown inView))
          unfold Shows at shown
          simp only [View.plainWithin, shown, ofJson_array, not_contains_position outside, form,
            Bool.false_eq_true, if_false]
          show Except.ok _ = _
          rw [List.map_map]
          exact congrArg (fun items => Except.ok (some (Tree.array items))) (List.map_id items)
  | object fields ih =>
      intro depth writing view shown enough outside
      cases depth with
      | zero => simp [Value.size] at enough
      | succ depth =>
          have shownFields := shows_fields shown
          unfold Shows at shown
          simp only [View.plainWithin, shown, ofJson_object, holdsFunction_ofJson,
            not_contains_position outside, Bool.false_eq_true, if_false]
          rw [mapM_eq_ok shownFields fun part inView field member here => ?_]
          · show Except.ok _ = _
            rw [List.filterMap_map]
            exact congrArg (fun fields => Except.ok (some (Tree.object fields)))
              (List.filterMap_some)
          · have smaller : (ofJson field.2).size < (Value.object false _).size :=
              size_lt_of_mem_fields (List.mem_map_of_mem (f := fun field : String × Json =>
                (field.1, ofJson field.2)) member)
            rw [ofJson_object] at enough
            have partForm := ih field member depth (view.position :: writing) here.2 (by omega)
              (inside outside (position_fields shown inView))
            obtain ⟨key, part⟩ := part
            obtain ⟨rfl, _⟩ := here
            dsimp only at partForm ⊢
            rw [partForm]
            rfl

/-! ## The canonical text -/

/-- A JSON value that a caller passes in has its canonical text. -/
theorem canonicalText_ofJson (layout : Json.Layout) (order : Json.KeyOrder) (value : Json) :
    canonicalText layout order (ofJson value) = .ok (Json.canonicalText layout order value) := by
  have form : (View.ofValue (ofJson value)).plainBy momentShell = .ok (some value) :=
    plainWithin_ofJson momentShell value _ [] rfl (Nat.le_succ _) (by simp)
  rw [canonicalText, not_isCircular_ofJson, if_neg Bool.false_ne_true, form]
  rfl

/-- **Canonical texts are read back.**  Whatever the indentation and the order of keys, every JSON
value has a canonical text, and reading it gives a JSON value that is equal to it up to the order of
the keys of objects and the signs of zeros. -/
theorem exists_canonicalText_alike {value : Json} (wellFormed : value.WellFormed)
    (indent : Number) (order : Json.KeyOrder) :
    ∃ text back, canonicalText (.ofNumber indent) order (ofJson value) = .ok text
      ∧ Json.parse? text = some back ∧ back.WellFormed ∧ Json.Alike value back := by
  obtain ⟨back, isRead, isJson, alike⟩ := Json.parse?_canonicalText_alike wellFormed indent order
  exact ⟨_, back, canonicalText_ofJson _ order value, isRead, isJson, alike⟩

/-- A value with keys that are treated apart, or written with escapes, and with a zero that has a
sign. -/
def oddities : Json :=
  .object [("constructor", Json.null), ("10", .array [Json.number (.finite true .zero)]),
    ("__proto__", .object [("", Json.string "\u2028"), ("9", .array []), ("_id", .object [])]),
    ("a \"b\"\n", Json.null)]

/-- No odd key is lost. -/
theorem oddities_are_read_back :
    oddities.WellFormed
      ∧ ∃ text back, canonicalText (.ofNumber (.ofNat 3)) (.listed ["_id", "10"]) (ofJson oddities)
          = .ok text
        ∧ Json.parse? text = some back ∧ back.WellFormed ∧ Json.Alike oddities back := by
  have wellFormed : oddities.WellFormed := by
    simp [oddities, Json.null, Json.number, Json.string, Scalar.IsFinite, Number.isFinite]
  exact ⟨wellFormed, exists_canonicalText_alike wellFormed (.ofNat 3) (.listed ["_id", "10"])⟩

/-- **Canonical texts are canonical.**  Whatever the indentation and the order of keys, every JSON
value has a canonical text, which just the JSON values have that are equal to it up to the order of
the keys of objects and the signs of zeros; and what is read back from it has it again. -/
theorem exactly_alike_share_canonicalText {value : Json} (wellFormed : value.WellFormed)
    (indent : Number) (order : Json.KeyOrder) :
    ∃ text, canonicalText (.ofNumber indent) order (ofJson value) = .ok text
      ∧ (∀ value' : Json, value'.WellFormed →
        (canonicalText (.ofNumber indent) order (ofJson value') = .ok text
          ↔ Json.Alike value value'))
      ∧ ∃ back, Json.parse? text = some back ∧ back.WellFormed
        ∧ canonicalText (.ofNumber indent) order (ofJson back) = .ok text := by
  have same {value' : Json} (wellFormed' : value'.WellFormed) :
      canonicalText (.ofNumber indent) order (ofJson value')
          = .ok (Json.canonicalText (.ofNumber indent) order value)
        ↔ Json.Alike value value' := by
    rw [canonicalText_ofJson, Except.ok.injEq, eq_comm]
    exact Json.canonicalText_eq_iff order wellFormed wellFormed' indent
  obtain ⟨back, isRead, isJson, alike⟩ := Json.parse?_canonicalText_alike wellFormed indent order
  exact ⟨_, canonicalText_ofJson _ order value, fun _ => same, back, isRead, isJson,
    (same isJson).mpr alike⟩

/-- A value like `oddities` whose objects list their keys in other orders, and whose zero has no
sign. -/
def rearrangedOddities : Json :=
  .object [("a \"b\"\n", Json.null),
    ("__proto__", .object [("_id", .object []), ("", Json.string "\u2028"), ("9", .array [])]),
    ("constructor", Json.null), ("10", .array [Json.number .zero])]

/-- Odd keys in any order have one text. -/
theorem oddities_share_canonicalText :
    oddities.WellFormed ∧ rearrangedOddities.WellFormed ∧ ∃ text,
      canonicalText (.ofNumber (.ofNat 2)) (.listed ["b", "_id", "b"]) (ofJson oddities) = .ok text
      ∧ canonicalText (.ofNumber (.ofNat 2)) (.listed ["b", "_id", "b"])
          (ofJson rearrangedOddities) = .ok text := by
  have wellFormed : oddities.WellFormed := by
    simp [oddities, Json.null, Json.number, Json.string, Scalar.IsFinite, Number.isFinite]
  have wellFormed' : rearrangedOddities.WellFormed := by
    simp [rearrangedOddities, Json.null, Json.number, Json.string, Scalar.IsFinite,
      Number.isFinite, Number.zero]
  obtain ⟨text, isText, shared, _⟩ := exactly_alike_share_canonicalText wellFormed (.ofNat 2)
    (.listed ["b", "_id", "b"])
  refine ⟨wellFormed, wellFormed', text, isText, (shared _ wellFormed').mpr ?_⟩
  exact (Json.settled_eq_iff_alike .alphabetical wellFormed wellFormed').mp (by decide +kernel)

end DocStore.Caller
