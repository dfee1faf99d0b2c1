import DocStore.Caller.Normal
import DocStore.Proofs.Caller.Containment
import DocStore.Proofs.Json.WellFormed
/-!
# Normal forms are JSON values

What callers pass has each key of an object once (`Value.Distinct`).  So a normal form is a
well-formed JSON value: `wellFormed_of_normal`, by induction on the value, and
`wellFormed_of_normalObject`.  What is JSON already is its own normal form, where it has one
(`eq_of_normal_ofJson`).
-/

set_option autoImplicit false

namespace DocStore.Caller

open Json (Location)

/-- Every object in a value has each of its keys once. -/
inductive Value.Distinct : Value → Prop
  | array {items : List Value} (each : ∀ item ∈ items, Distinct item) : Distinct (.array items)
  | object {bare : Bool} {fields : List (String × Value)} (distinct : (fields.map Prod.fst).Nodup)
      (each : ∀ field ∈ fields, Distinct field.2) : Distinct (.object bare fields)
  | other {value : Value} (noArray : ∀ items, value ≠ .array items)
      (noObject : ∀ bare fields, value ≠ .object bare fields) : Distinct value

theorem Value.distinct_ofString (text : String) : (Value.ofString text).Distinct :=
  .other (fun _ same => nomatch same) (fun _ _ same => nomatch same)

theorem wellFormed_of_normalScalar {place : Location} {value : Scalar} {form : Json}
    (isForm : normalScalar place value = .ok form) : form.WellFormed := by
  cases value with
  | number value =>
      rw [normalScalar] at isForm
      split at isForm
      next finite =>
        cases isForm
        exact .leaf finite
      next => cases isForm
  | null | boolean _ | string _ =>
      cases isForm
      exact .leaf trivial

/-- What one kind of step passes on, read backwards. -/
theorem bind_eq_ok {ε α β : Type} {first : Except ε α} {next : α → Except ε β} {value : β}
    (isValue : (first >>= next) = .ok value) :
    ∃ middle, first = .ok middle ∧ next middle = .ok value := by
  cases first with
  | error failure => cases isValue
  | ok middle => exact ⟨middle, rfl, isValue⟩

theorem wellFormed_of_normalItems {place : Location} {items : List Value}
    (each : ∀ item ∈ items, ∀ (place : Location) (form : Json),
      normal place item = .ok form → form.WellFormed) :
    ∀ {number : Nat} {forms : List Json}, normalItems place number items = .ok forms →
      ∀ form ∈ forms, form.WellFormed := by
  induction items with
  | nil =>
      intro number forms isForm form member
      rw [normalItems] at isForm
      cases isForm
      cases member
  | cons item rest ih =>
      intro number forms isForm
      have present : item ≠ .absent := by
        rintro rfl
        rw [normalItems] at isForm
        cases isForm
      rw [normalItems.eq_3 _ _ _ _ present] at isForm
      obtain ⟨first, isFirst, isForm⟩ := bind_eq_ok isForm
      obtain ⟨others, isOthers, isForm⟩ := bind_eq_ok isForm
      cases isForm
      intro form member
      rcases List.mem_cons.mp member with rfl | inRest
      · exact each item (by simp) _ _ isFirst
      · exact ih (fun item member => each item (List.mem_cons_of_mem _ member)) isOthers form inRest

theorem wellFormed_of_normalFields {place : Location} {fields : List (String × Value)}
    (each : ∀ field ∈ fields, ∀ (place : Location) (form : Json),
      normal place field.2 = .ok form → form.WellFormed) :
    ∀ {forms : List (String × Json)}, normalFields place fields = .ok forms →
      (forms.map Prod.fst).Sublist (fields.map Prod.fst) ∧ ∀ form ∈ forms, form.2.WellFormed := by
  induction fields with
  | nil =>
      intro forms isForm
      rw [normalFields] at isForm
      cases isForm
      exact ⟨List.Sublist.refl _, fun _ member => nomatch member⟩
  | cons field rest ih =>
      obtain ⟨key, value⟩ := field
      have restEach : ∀ field ∈ rest, ∀ (place : Location) (form : Json),
          normal place field.2 = .ok form → form.WellFormed :=
        fun field member => each field (List.mem_cons_of_mem _ member)
      intro forms isForm
      by_cases absent : value = .absent
      · rw [absent, normalFields] at isForm
        obtain ⟨keys, inside⟩ := ih restEach isForm
        exact ⟨keys.cons _, inside⟩
      · rw [normalFields.eq_3 _ _ _ _ absent] at isForm
        obtain ⟨first, isFirst, isForm⟩ := bind_eq_ok isForm
        obtain ⟨others, isOthers, isForm⟩ := bind_eq_ok isForm
        cases isForm
        obtain ⟨keys, inside⟩ := ih restEach isOthers
        refine ⟨keys.cons_cons _, fun form member => ?_⟩
        rcases List.mem_cons.mp member with rfl | inRest
        · exact each (key, value) (by simp) _ _ isFirst
        · exact inside form inRest

/-- **A normal form is a JSON value.** -/
theorem wellFormed_of_normal {value : Value} (distinct : value.Distinct) :
    ∀ (place : Location) (form : Json), normal place value = .ok form → form.WellFormed := by
  induction distinct with
  | array _ ih =>
      intro place form isForm
      rw [normal] at isForm
      obtain ⟨forms, isForms, isForm⟩ := bind_eq_ok isForm
      cases isForm
      exact .array (wellFormed_of_normalItems ih isForms)
  | object keysDistinct _ ih =>
      intro place form isForm
      rw [normal] at isForm
      obtain ⟨forms, isForms, isForm⟩ := bind_eq_ok isForm
      cases isForm
      obtain ⟨keys, inside⟩ := wellFormed_of_normalFields ih isForms
      exact .object (keysDistinct.sublist keys) inside
  | @other value noArray noObject =>
      intro place form isForm
      cases value with
      | array items => exact absurd rfl (noArray items)
      | object bare fields => exact absurd rfl (noObject bare fields)
      | scalar value =>
          rw [normal] at isForm
          exact wellFormed_of_normalScalar isForm
      | _ =>
          rw [normal] at isForm
          cases isForm

theorem wellFormed_of_normalObject {label : String} {value : Value} (distinct : value.Distinct)
    {form : Json} (isForm : normalObject label value = .ok form) : form.WellFormed := by
  rw [normalObject] at isForm
  split at isForm
  · exact wellFormed_of_normal distinct _ _ isForm
  · cases isForm

/-! ## JSON values -/

theorem ofJson_ne_absent (json : Json) : ofJson json ≠ .absent := by
  cases json <;> exact nofun

/-- **The normal form of a JSON value**, where it has one, is that value. -/
theorem eq_of_normal_ofJson {json : Json} :
    ∀ {place : Location} {form : Json}, normal place (ofJson json) = .ok form → form = json := by
  induction json using Tree.induct with
  | leaf value =>
      intro place form isForm
      rw [ofJson, normal] at isForm
      cases value with
      | number value =>
          rw [normalScalar] at isForm
          split at isForm
          · cases isForm
            rfl
          · cases isForm
      | _ =>
          cases isForm
          rfl
  | array items ih =>
      have same : ∀ {place : Location} {number : Nat} {forms : List Json},
          normalItems place number (items.map ofJson) = .ok forms → forms = items := by
        induction items with
        | nil =>
            intro place number forms isForm
            rw [List.map_nil, normalItems] at isForm
            cases isForm
            rfl
        | cons item rest ihRest =>
            intro place number forms isForm
            rw [List.map_cons, normalItems.eq_3 _ _ _ _ (ofJson_ne_absent item)] at isForm
            obtain ⟨first, isFirst, isForm⟩ := bind_eq_ok isForm
            obtain ⟨others, isOthers, isForm⟩ := bind_eq_ok isForm
            cases isForm
            rw [ih item (by simp) isFirst,
              ihRest (fun other member => ih other (List.mem_cons_of_mem _ member)) isOthers]
      intro place form isForm
      rw [ofJson_array, normal] at isForm
      obtain ⟨forms, isForms, isForm⟩ := bind_eq_ok isForm
      cases isForm
      rw [same isForms]
  | object fields ih =>
      have same : ∀ {place : Location} {forms : List (String × Json)},
          normalFields place (fields.map fun field => (field.1, ofJson field.2)) = .ok forms →
            forms = fields := by
        induction fields with
        | nil =>
            intro place forms isForm
            rw [List.map_nil, normalFields] at isForm
            cases isForm
            rfl
        | cons field rest ihRest =>
            intro place forms isForm
            rw [List.map_cons, normalFields.eq_3 _ _ _ _ (ofJson_ne_absent field.2)] at isForm
            obtain ⟨first, isFirst, isForm⟩ := bind_eq_ok isForm
            obtain ⟨others, isOthers, isForm⟩ := bind_eq_ok isForm
            cases isForm
            rw [ih field (by simp) isFirst,
              ihRest (fun other member => ih other (List.mem_cons_of_mem _ member)) isOthers]
      intro place form isForm
      rw [ofJson_object, normal] at isForm
      obtain ⟨forms, isForms, isForm⟩ := bind_eq_ok isForm
      cases isForm
      rw [same isForms]

end DocStore.Caller
