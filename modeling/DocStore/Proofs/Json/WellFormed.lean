import DocStore.Json.Canonical
import DocStore.Json.Tree
import DocStore.Proofs.Lookup
import DocStore.Proofs.Sorting
import Mathlib.Data.List.Nodup
/-!
# Well-formed JSON values

The trees that JSON values are: their numbers are finite, and every object has each of its keys
once.

`Tree.induct` is induction on trees with one case for each kind of tree, where the hypothesis is
about the members of an array or an object.
-/

set_option autoImplicit false

namespace DocStore

namespace Tree

variable {α : Type}

/-- Induction on trees. -/
@[elab_as_elim]
theorem induct {motive : Tree α → Prop} (leaf : ∀ value, motive (.leaf value))
    (array : ∀ items, (∀ item ∈ items, motive item) → motive (.array items))
    (object : ∀ fields, (∀ field ∈ fields, motive field.2) → motive (.object fields)) :
    ∀ tree, motive tree
  | .leaf value => leaf value
  | .array items => array items fun item _ => induct leaf array object item
  | .object fields => object fields fun field _ => induct leaf array object field.2
termination_by tree => sizeOf tree
decreasing_by
  · rename_i member
    have smaller := List.sizeOf_lt_of_mem member
    simp only [Tree.array.sizeOf_spec]
    omega
  · rename_i member
    have smaller := List.sizeOf_lt_of_mem member
    obtain ⟨key, value⟩ := field
    simp only [Tree.object.sizeOf_spec, Prod.mk.sizeOf_spec] at smaller ⊢
    omega

end Tree

/-- A scalar of JSON, whose numbers are finite. -/
def Scalar.IsFinite : Scalar → Prop
  | .number value => value.isFinite = true
  | _ => True

instance (value : Scalar) : Decidable value.IsFinite := by
  cases value <;> unfold Scalar.IsFinite <;> infer_instance

namespace Json

/-- A JSON value: its numbers are finite, and each of its objects has every key once. -/
inductive WellFormed : Json → Prop where
  | leaf {value : Scalar} (finite : value.IsFinite) : WellFormed (.leaf value)
  | array {items : List Json} (each : ∀ item ∈ items, WellFormed item) : WellFormed (.array items)
  | object {fields : List (String × Json)} (distinct : (fields.map Prod.fst).Nodup)
      (each : ∀ field ∈ fields, WellFormed field.2) : WellFormed (.object fields)

@[simp] theorem wellFormed_leaf {value : Scalar} :
    WellFormed (.leaf value) ↔ value.IsFinite :=
  ⟨fun wellFormed => by cases wellFormed with | leaf finite => exact finite, .leaf⟩

@[simp] theorem wellFormed_array {items : List Json} :
    WellFormed (.array items) ↔ ∀ item ∈ items, WellFormed item :=
  ⟨fun wellFormed => by cases wellFormed with | array each => exact each, .array⟩

@[simp] theorem wellFormed_object {fields : List (String × Json)} :
    WellFormed (.object fields)
      ↔ (fields.map Prod.fst).Nodup ∧ ∀ field ∈ fields, WellFormed field.2 :=
  ⟨fun wellFormed => by cases wellFormed with | object distinct each => exact ⟨distinct, each⟩,
    fun ⟨distinct, each⟩ => .object distinct each⟩

end Json

end DocStore

/-!
## The order of keys

An object lists its keys by rank, so listing them twice changes nothing (`inKeyOrder_inKeyOrder`).
Fields with distinct keys that are arranged by a key order come out the same however they were
listed before (`KeyOrder.fields_eq_of_perm`).  Every object of an arranged value lists its keys as
objects do (`listed_arrange`), and arranging keeps a value well formed (`wellFormed_arrange`).
-/

namespace DocStore

open Sorting

namespace Fields

variable {β : Type}

/-- Keys are ranked by the order in which objects list them. -/
theorem ranks_keyBefore : Ranks keyBefore where
  asymm {first second} isBefore := by
    simp only [keyBefore] at isBefore ⊢
    generalize indexKey? first = index, indexKey? second = index' at isBefore ⊢
    cases index <;> cases index' <;>
      simp only [decide_eq_true_eq, decide_eq_false_iff_not, reduceCtorEq] at isBefore ⊢
    omega
  trans {first second third} notBefore notBefore' := by
    simp only [keyBefore] at notBefore notBefore' ⊢
    generalize indexKey? first = index, indexKey? second = index', indexKey? third = index''
      at notBefore notBefore' ⊢
    cases index <;> cases index' <;> cases index'' <;>
      simp only [decide_eq_false_iff_not, reduceCtorEq] at notBefore notBefore' ⊢
    omega

theorem inKeyOrder_perm (fields : List (String × β)) : (inKeyOrder fields).Perm fields :=
  sort_perm _ fields

/-- Fields that are listed as an object lists them stay as they are. -/
theorem inKeyOrder_inKeyOrder (fields : List (String × β)) :
    inKeyOrder (inKeyOrder fields) = inKeyOrder fields :=
  sort_eq_self (sorted_sort (ranks_keyBefore.by_part Prod.fst) fields)

theorem inKeyOrder_map {γ : Type} (change : β → γ) (fields : List (String × β)) :
    inKeyOrder (fields.map fun field => (field.1, change field.2))
      = (inKeyOrder fields).map fun field => (field.1, change field.2) :=
  (map_sort (fun first second : String × γ => keyBefore first.1 second.1)
    (fun field : String × β => (field.1, change field.2)) fields).symm

theorem put_of_not_mem {key : String} (value : β) {fields : List (String × β)}
    (absent : key ∉ fields.map Prod.fst) : put key value fields = fields ++ [(key, value)] := by
  induction fields with
  | nil => rfl
  | cons field rest ih =>
      obtain ⟨head, old⟩ := field
      rw [List.map_cons, List.mem_cons, not_or] at absent
      rw [put, if_neg fun same => absent.1 same.symm, ih absent.2, List.cons_append]

/-- Assigning keys that are not there yet puts them behind those that are. -/
theorem foldl_put_eq_append {before after : List (String × β)}
    (distinct : ((before ++ after).map Prod.fst).Nodup) :
    after.foldl (fun fields assignment => put assignment.1 assignment.2 fields) before
      = before ++ after := by
  induction after generalizing before with
  | nil => simp
  | cons field rest ih =>
      have split : before ++ field :: rest = before ++ [field] ++ rest := by simp
      have absent : field.1 ∉ before.map Prod.fst := by
        rw [List.map_append, List.nodup_append] at distinct
        exact fun member => distinct.2.2 _ member field.1 (by simp) rfl
      rw [List.foldl_cons, put_of_not_mem _ absent, ih (by rwa [← split]), split]

/-- Assigning distinct keys one after the other lists them all. -/
theorem ofList_eq_inKeyOrder {fields : List (String × β)}
    (distinct : (fields.map Prod.fst).Nodup) : ofList fields = inKeyOrder fields := by
  rw [ofList, foldl_put_eq_append (by simpa using distinct), List.nil_append]

end Fields

namespace Json

namespace KeyOrder

variable {β : Type}

/-- Keys are ranked by every key order. -/
theorem ranks_before (order : KeyOrder) : Ranks order.before := by
  cases order with
  | alphabetical => exact Text.ranks_before
  | listed keys =>
      refine ⟨fun {first second} isBefore => ?_, fun {first second third} notBefore notBefore' => ?_⟩
      · simp only [before] at isBefore ⊢
        generalize keys.idxOf? first = place, keys.idxOf? second = place' at isBefore ⊢
        cases place <;> cases place' <;>
          simp only [decide_eq_true_eq, decide_eq_false_iff_not, reduceCtorEq] at isBefore ⊢
        · exact Text.ranks_before.asymm isBefore
        · omega
      · simp only [before] at notBefore notBefore' ⊢
        generalize keys.idxOf? first = place, keys.idxOf? second = place',
          keys.idxOf? third = place'' at notBefore notBefore' ⊢
        cases place <;> cases place' <;> cases place'' <;>
          simp only [decide_eq_false_iff_not, reduceCtorEq] at notBefore notBefore' ⊢
        · exact Text.ranks_before.trans notBefore notBefore'
        · omega

/-- No two keys have the same rank. -/
theorem eq_of_not_before (order : KeyOrder) {first second : String}
    (notBefore : order.before first second = false)
    (notAfter : order.before second first = false) : first = second := by
  cases order with
  | alphabetical => exact Text.eq_of_not_before notBefore notAfter
  | listed keys =>
      simp only [before] at notBefore notAfter
      cases place : keys.idxOf? first with
      | none =>
          cases place' : keys.idxOf? second with
          | none =>
              simp only [place, place'] at notBefore notAfter
              exact Text.eq_of_not_before notBefore notAfter
          | some _ => simp [place, place'] at notAfter
      | some index =>
          cases place' : keys.idxOf? second with
          | none => simp [place, place'] at notBefore
          | some index' =>
              simp only [place, place', decide_eq_false_iff_not] at notBefore notAfter
              obtain rfl : index = index' := by omega
              obtain ⟨inside, same, _⟩ := List.idxOf?_eq_some_iff.mp place
              obtain ⟨_, same', _⟩ := List.idxOf?_eq_some_iff.mp place'
              exact same.symm.trans same'

theorem fields_perm (order : KeyOrder) (fields : List (String × β)) :
    (order.fields fields).Perm fields :=
  (Fields.inKeyOrder_perm _).trans (sort_perm _ fields)

theorem mem_fields {order : KeyOrder} {fields : List (String × β)} {field : String × β} :
    field ∈ order.fields fields ↔ field ∈ fields :=
  (order.fields_perm fields).mem_iff

theorem nodup_fields {order : KeyOrder} {fields : List (String × β)} :
    ((order.fields fields).map Prod.fst).Nodup ↔ (fields.map Prod.fst).Nodup :=
  ((order.fields_perm fields).map Prod.fst).nodup_iff

theorem fields_map {γ : Type} (order : KeyOrder) (change : β → γ) (fields : List (String × β)) :
    order.fields (fields.map fun field => (field.1, change field.2))
      = (order.fields fields).map fun field => (field.1, change field.2) := by
  rw [KeyOrder.fields, KeyOrder.fields, ← Fields.inKeyOrder_map]
  exact congrArg _ (map_sort (fun first second : String × γ => order.before first.1 second.1)
    (fun field : String × β => (field.1, change field.2)) fields).symm

/-- With distinct keys the order in which fields were listed does not show. -/
theorem fields_eq_of_perm (order : KeyOrder) {fields fields' : List (String × β)}
    (distinct : (fields.map Prod.fst).Nodup) (reordered : fields.Perm fields') :
    order.fields fields = order.fields fields' := by
  refine congrArg Fields.inKeyOrder
    (sort_eq_of_perm (order.ranks_before.by_part Prod.fst) reordered ?_)
  intro first inFields second inFields' notBefore notAfter
  exact List.inj_on_of_nodup_map distinct inFields inFields'
    (order.eq_of_not_before notBefore notAfter)

end KeyOrder

/-- Every object of the value lists its keys as objects do. -/
inductive Listed : Json → Prop where
  | leaf (value : Scalar) : Listed (.leaf value)
  | array {items : List Json} (each : ∀ item ∈ items, Listed item) : Listed (.array items)
  | object {fields : List (String × Json)} (listed : Fields.inKeyOrder fields = fields)
      (each : ∀ field ∈ fields, Listed field.2) : Listed (.object fields)

theorem listed_arrange (order : KeyOrder) (value : Json) : Listed (arrange order value) := by
  induction value using Tree.induct with
  | leaf value => exact .leaf value
  | array items ih =>
      rw [arrange_array]
      refine .array fun item member => ?_
      obtain ⟨item, inItems, rfl⟩ := List.mem_map.mp member
      exact ih item inItems
  | object fields ih =>
      rw [arrange_object]
      refine .object (Fields.inKeyOrder_inKeyOrder _) fun field member => ?_
      obtain ⟨field, inFields, rfl⟩ := List.mem_map.mp (KeyOrder.mem_fields.mp member)
      exact ih field inFields

theorem wellFormed_arrange {order : KeyOrder} {value : Json} (wellFormed : WellFormed value) :
    WellFormed (arrange order value) := by
  induction wellFormed with
  | leaf finite => exact .leaf finite
  | array _ ih =>
      rw [arrange_array]
      refine .array fun item member => ?_
      obtain ⟨item, inItems, rfl⟩ := List.mem_map.mp member
      exact ih item inItems
  | object distinct _ ih =>
      rw [arrange_object]
      refine .object (KeyOrder.nodup_fields.mpr ?_) fun field member => ?_
      · rwa [Lookup.map_fst_map]
      obtain ⟨field, inFields, rfl⟩ := List.mem_map.mp (KeyOrder.mem_fields.mp member)
      exact ih field inFields

end Json

end DocStore
