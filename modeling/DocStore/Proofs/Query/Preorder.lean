import DocStore.Proofs.Json.WellFormed
import DocStore.Query.Containment
/-!
# Containment as a preorder

Every JSON value contains itself (`contains_refl`), and what is contained in a contained value is
contained (`contains_trans`).  Values that differ by the order of keys, or by the order of items and
by how often they are repeated, at any depth, contain each other (`Rearranged.contains`).  So a
search does not tell them apart, neither as documents nor as queries.
-/

set_option autoImplicit false

namespace DocStore

namespace Number

theorem same_refl {value : Number} (finite : value.isFinite = true) : value.same value = true := by
  cases value <;> simp [isFinite, same] at finite ⊢

theorem same_trans {first second third : Number} (left : first.same second = true)
    (right : second.same third = true) : first.same third = true := by
  cases first <;> cases second <;> cases third <;>
    simp only [same, Bool.and_eq_true, Bool.or_eq_true, beq_iff_eq, reduceCtorEq] at left right ⊢
  case finite.finite.finite =>
    obtain ⟨rfl, rfl | zero⟩ := left
    · exact right
    · obtain ⟨rfl, _⟩ := right
      exact ⟨rfl, .inr zero⟩
  case infinite.infinite.infinite => exact left.trans right

end Number

namespace Scalar

theorem same_refl {value : Scalar} (finite : value.IsFinite) : value.same value = true := by
  cases value with
  | number value => exact Number.same_refl finite
  | null => rfl
  | boolean value => simp [same]
  | string value => simp [same]

theorem same_trans {first second third : Scalar} (left : first.same second = true)
    (right : second.same third = true) : first.same third = true := by
  cases first <;> cases second <;> simp [same] at left <;> cases third <;>
    simp [same] at right ⊢
  case number.number.number => exact Number.same_trans left right
  case boolean.boolean.boolean => exact left.trans right
  case string.string.string => exact left.trans right

end Scalar

namespace Json

/-! ## Containment of arrays and objects -/

theorem contains_array_iff {items wanted : List Json} :
    contains (.array items) (.array wanted) = true
      ↔ ∀ query ∈ wanted, ∃ item ∈ items, contains item query = true := by
  simp only [contains, Tree.contains_array, List.all_eq_true, List.any_eq_true]

theorem contains_object_iff {fields wanted : List (String × Json)} :
    contains (.object fields) (.object wanted) = true
      ↔ ∀ query ∈ wanted, ∃ value, fields.lookup query.1 = some value
          ∧ contains value query.2 = true := by
  simp only [contains, Tree.contains_object, List.all_eq_true]
  refine forall₂_congr fun query _ => ?_
  cases fields.lookup query.1 <;> simp

/-- A value contains only values of its own kind. -/
theorem array_of_contains_array {value : Json} {wanted : List Json}
    (contained : contains value (.array wanted) = true) : ∃ items, value = .array items := by
  cases value with
  | array items => exact ⟨items, rfl⟩
  | leaf _ => simp [contains, Tree.containsBy] at contained
  | object _ => simp [contains, Tree.containsBy] at contained

theorem object_of_contains_object {value : Json} {wanted : List (String × Json)}
    (contained : contains value (.object wanted) = true) : ∃ fields, value = .object fields := by
  cases value with
  | object fields => exact ⟨fields, rfl⟩
  | leaf _ => simp [contains, Tree.containsBy] at contained
  | array _ => simp [contains, Tree.containsBy] at contained

theorem leaf_of_contains_leaf {value : Json} {wanted : Scalar}
    (contained : contains value (.leaf wanted) = true) :
    ∃ found, value = .leaf found ∧ found.same wanted = true := by
  cases value with
  | leaf found => exact ⟨found, rfl, contained⟩
  | array _ => simp [contains, Tree.containsBy] at contained
  | object _ => simp [contains, Tree.containsBy] at contained

/-! ## The preorder -/

/-- Every JSON value contains itself. -/
theorem contains_refl {value : Json} (wellFormed : value.WellFormed) :
    contains value value = true := by
  induction wellFormed with
  | leaf finite => exact Scalar.same_refl finite
  | array _ ih => exact contains_array_iff.mpr fun item member => ⟨item, member, ih item member⟩
  | object distinct _ ih =>
      exact contains_object_iff.mpr fun field member =>
        ⟨field.2, (Lookup.lookup_eq_some_iff distinct).mpr member, ih field member⟩

/-- What a contained value contains is contained. -/
theorem contains_trans {third : Json} : ∀ {first second : Json},
    contains first second = true → contains second third = true →
      contains first third = true := by
  induction third using Tree.induct with
  | leaf value =>
      intro first second left right
      obtain ⟨found, rfl, same⟩ := leaf_of_contains_leaf right
      obtain ⟨found', rfl, same'⟩ := leaf_of_contains_leaf left
      exact Scalar.same_trans same' same
  | array wanted ih =>
      intro first second left right
      obtain ⟨middle, rfl⟩ := array_of_contains_array right
      obtain ⟨items, rfl⟩ := array_of_contains_array left
      rw [contains_array_iff] at left right ⊢
      intro query member
      obtain ⟨between, inMiddle, contained⟩ := right query member
      obtain ⟨item, inItems, contained'⟩ := left between inMiddle
      exact ⟨item, inItems, ih query member contained' contained⟩
  | object wanted ih =>
      intro first second left right
      obtain ⟨middle, rfl⟩ := object_of_contains_object right
      obtain ⟨fields, rfl⟩ := object_of_contains_object left
      rw [contains_object_iff] at left right ⊢
      intro query member
      obtain ⟨between, inMiddle, contained⟩ := right query member
      obtain ⟨value, inFields, contained'⟩ := left (query.1, between) (Lookup.mem_of_lookup inMiddle)
      exact ⟨value, inFields, ih query member contained' contained⟩

/-- A value that is contained in another and contains it is found by the same queries and found in
the same documents. -/
theorem contains_congr {document document' query query' : Json}
    (documents : contains document document' = true ∧ contains document' document = true)
    (queries : contains query query' = true ∧ contains query' query = true) :
    contains document' query' = contains document query := by
  rw [Bool.eq_iff_iff]
  exact ⟨fun found => contains_trans documents.1 (contains_trans found queries.2),
    fun found => contains_trans documents.2 (contains_trans found queries.1)⟩

/-! ## Rearranged values -/

/-- Values that differ only by the order of keys and by the order and the repetition of items, at
any depth. -/
inductive Rearranged : Json → Json → Prop where
  | refl (value : Json) : Rearranged value value
  | symm {first second : Json} : Rearranged first second → Rearranged second first
  | trans {first second third : Json} :
      Rearranged first second → Rearranged second third → Rearranged first third
  | keys {fields fields' : List (String × Json)} (reordered : fields.Perm fields') :
      Rearranged (.object fields) (.object fields')
  | items {items items' : List Json} (reordered : items.Perm items') :
      Rearranged (.array items) (.array items')
  | repeated {item : Json} {items : List Json} (member : item ∈ items) :
      Rearranged (.array items) (.array (item :: items))
  | inField (before after : List (String × Json)) (key : String) {value value' : Json} :
      Rearranged value value' →
        Rearranged (.object (before ++ (key, value) :: after))
          (.object (before ++ (key, value') :: after))
  | inItem (before after : List Json) {item item' : Json} :
      Rearranged item item' →
        Rearranged (.array (before ++ item :: after)) (.array (before ++ item' :: after))

/-- Rearranging keeps values well-formed. -/
theorem Rearranged.wellFormed_iff {first second : Json} (rearranged : Rearranged first second) :
    first.WellFormed ↔ second.WellFormed := by
  induction rearranged with
  | refl value => exact .rfl
  | symm _ ih => exact ih.symm
  | trans _ _ ih ih' => exact ih.trans ih'
  | keys reordered =>
      rw [wellFormed_object, wellFormed_object, (reordered.map Prod.fst).nodup_iff]
      exact and_congr_right fun _ => forall_congr' fun field => by rw [reordered.mem_iff]
  | items reordered =>
      rw [wellFormed_array, wellFormed_array]
      exact forall_congr' fun item => by rw [reordered.mem_iff]
  | repeated member =>
      simp only [wellFormed_array, List.forall_mem_cons]
      exact ⟨fun each => ⟨each _ member, each⟩, And.right⟩
  | inField before after key _ ih =>
      simp only [wellFormed_object, List.map_append, List.map_cons, List.forall_mem_append,
        List.forall_mem_cons, ih]
  | inItem before after _ ih =>
      simp only [wellFormed_array, List.forall_mem_append, List.forall_mem_cons, ih]

/-- An array contains another when every item of the other is one of its own. -/
theorem contains_array_of_subset {items wanted : List Json}
    (wellFormed : ∀ item ∈ items, item.WellFormed) (subset : wanted ⊆ items) :
    contains (.array items) (.array wanted) = true :=
  contains_array_iff.mpr fun query member =>
    ⟨query, subset member, contains_refl (wellFormed query (subset member))⟩

/-- An object contains another when every field of the other is one of its own. -/
theorem contains_object_of_subset {fields wanted : List (String × Json)}
    (wellFormed : WellFormed (.object fields)) (subset : wanted ⊆ fields) :
    contains (.object fields) (.object wanted) = true := by
  rw [wellFormed_object] at wellFormed
  exact contains_object_iff.mpr fun query member =>
    ⟨query.2, (Lookup.lookup_eq_some_iff wellFormed.1).mpr (subset member),
      contains_refl (wellFormed.2 query (subset member))⟩

/-- An array contains the array with one item replaced by one that the item contains. -/
theorem contains_array_of_item {before after : List Json} {item item' : Json}
    (wellFormed : WellFormed (.array (before ++ item :: after)))
    (inner : contains item item' = true) :
    contains (.array (before ++ item :: after)) (.array (before ++ item' :: after)) = true := by
  rw [wellFormed_array] at wellFormed
  refine contains_array_iff.mpr fun query member => ?_
  rcases List.mem_append.mp member with early | late
  · have present : query ∈ before ++ item :: after := List.mem_append_left _ early
    exact ⟨query, present, contains_refl (wellFormed query present)⟩
  · rcases List.mem_cons.mp late with rfl | later
    · exact ⟨item, by simp, inner⟩
    · have present : query ∈ before ++ item :: after := by simp [later]
      exact ⟨query, present, contains_refl (wellFormed query present)⟩

/-- An object contains the object with the value of one field replaced by one that the value
contains. -/
theorem contains_object_of_field {before after : List (String × Json)} {key : String}
    {value value' : Json} (wellFormed : WellFormed (.object (before ++ (key, value) :: after)))
    (inner : contains value value' = true) :
    contains (.object (before ++ (key, value) :: after))
      (.object (before ++ (key, value') :: after)) = true := by
  rw [wellFormed_object] at wellFormed
  refine contains_object_iff.mpr fun query member => ?_
  have found {field : String × Json} (present : field ∈ before ++ (key, value) :: after) :=
    (Lookup.lookup_eq_some_iff wellFormed.1).mpr present
  rcases List.mem_append.mp member with early | late
  · have present : query ∈ before ++ (key, value) :: after := List.mem_append_left _ early
    exact ⟨query.2, found present, contains_refl (wellFormed.2 query present)⟩
  · rcases List.mem_cons.mp late with rfl | later
    · have present : (key, value) ∈ before ++ (key, value) :: after := by simp
      exact ⟨value, found present, inner⟩
    · have present : query ∈ before ++ (key, value) :: after := by simp [later]
      exact ⟨query.2, found present, contains_refl (wellFormed.2 query present)⟩

/-- Rearranged values contain each other. -/
theorem Rearranged.contains {first second : Json} (rearranged : Rearranged first second) :
    first.WellFormed →
      first.contains second = true ∧ second.contains first = true := by
  induction rearranged with
  | refl value => exact fun wellFormed => ⟨contains_refl wellFormed, contains_refl wellFormed⟩
  | symm inner ih => exact fun wellFormed => (ih (inner.wellFormed_iff.mpr wellFormed)).symm
  | trans inner _ ih ih' =>
      intro wellFormed
      have left := ih wellFormed
      have right := ih' (inner.wellFormed_iff.mp wellFormed)
      exact ⟨contains_trans left.1 right.1, contains_trans right.2 left.2⟩
  | keys reordered =>
      intro wellFormed
      exact ⟨contains_object_of_subset wellFormed reordered.symm.subset,
        contains_object_of_subset ((Rearranged.keys reordered).wellFormed_iff.mp wellFormed)
          reordered.subset⟩
  | items reordered =>
      intro wellFormed
      have wellFormed' := (Rearranged.items reordered).wellFormed_iff.mp wellFormed
      rw [wellFormed_array] at wellFormed wellFormed'
      exact ⟨contains_array_of_subset wellFormed reordered.symm.subset,
        contains_array_of_subset wellFormed' reordered.subset⟩
  | repeated member =>
      intro wellFormed
      have wellFormed' := (Rearranged.repeated member).wellFormed_iff.mp wellFormed
      rw [wellFormed_array] at wellFormed wellFormed'
      exact ⟨contains_array_of_subset wellFormed (List.cons_subset.mpr ⟨member, List.Subset.refl _⟩),
        contains_array_of_subset wellFormed' (List.subset_cons_self _ _)⟩
  | inField before after key inner ih =>
      intro wellFormed
      have wellFormed' := (Rearranged.inField before after key inner).wellFormed_iff.mp wellFormed
      have here := ih ((wellFormed_object.mp wellFormed).2 (key, _) (by simp))
      exact ⟨contains_object_of_field wellFormed here.1, contains_object_of_field wellFormed' here.2⟩
  | inItem before after inner ih =>
      intro wellFormed
      have wellFormed' := (Rearranged.inItem before after inner).wellFormed_iff.mp wellFormed
      have here := ih (wellFormed_array.mp wellFormed _ (by simp))
      exact ⟨contains_array_of_item wellFormed here.1, contains_array_of_item wellFormed' here.2⟩

/-- **Containment is a preorder on JSON values that does not see how they are arranged.** -/
theorem contains_preorder_up_to_rearrangement :
    (∀ value : Json, value.WellFormed → contains value value = true)
      ∧ (∀ first second third : Json, contains first second = true →
          contains second third = true → contains first third = true)
      ∧ ∀ document document' query query' : Json, document.WellFormed → query.WellFormed →
          Rearranged document document' → Rearranged query query' →
            contains document' query' = contains document query :=
  ⟨fun _ wellFormed => contains_refl wellFormed,
    fun _ _ _ left right => contains_trans left right,
    fun _ _ _ _ wellFormed wellFormed' documents queries =>
      contains_congr (documents.contains wellFormed) (queries.contains wellFormed')⟩

/-- A repeated item below a reordered object changes no answer. -/
theorem nested_repetition_unseen :
    let item : Json := .object [("a", number .zero), ("b", null)]
    let item' : Json := .object [("b", null), ("a", number .zero)]
    let document : Json := .object [("list", .array [item]), ("_id", string "x")]
    let document' : Json := .object [("_id", string "x"), ("list", .array [item', item'])]
    let query : Json := .object [("list", .array [.object [("b", null)]])]
    document.WellFormed ∧ query.WellFormed ∧ Rearranged document document'
      ∧ contains document' query = contains document query := by
  intro item item' document document' query
  have wellFormed : document.WellFormed := by
    simp [document, item, Scalar.IsFinite, Number.isFinite, Number.zero]
  have wellFormed' : query.WellFormed := by
    simp [query, Scalar.IsFinite]
  have repeated : Rearranged (.array [item]) (.array [item', item']) :=
    (Rearranged.inItem [] [] (.keys (.swap _ _ _))).trans (.repeated (.head _))
  have rearranged : Rearranged document document' :=
    (Rearranged.inField [] _ "list" repeated).trans (.keys (.swap _ _ _))
  exact ⟨wellFormed, wellFormed', rearranged, contains_preorder_up_to_rearrangement.2.2 _ _ _ _
    wellFormed wellFormed' rearranged (.refl query)⟩

end Json

end DocStore
