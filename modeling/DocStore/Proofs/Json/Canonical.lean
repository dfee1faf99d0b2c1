import DocStore.Proofs.Json.Settled
import Mathlib.Data.List.Pairwise
/-!
# Canonical texts

A canonical text stands for the values that are alike and for no others: values that are alike
settle to the same value (`settled_eq_iff_alike`), so they have the same text, and a text is read
back as what its values settle to (`canonicalText_eq_iff`).

The keys of an object are sorted by the order of keys, but then an object is filled with them, which
lists number-like keys first.  `canonicalText_keys` says which order comes of it, and for which
values it is the order of keys.
-/

set_option autoImplicit false

namespace DocStore

theorem Number.unsigned_eq_iff {value value' : Number} (finite : value.isFinite = true) :
    value.unsigned = value'.unsigned ↔ value.same value' = true := by
  cases value with
  | infinite _ | undefined => cases finite
  | finite negative magnitude =>
      cases value' with
      | infinite _ | undefined => simp [unsigned, same]
      | finite negative' magnitude' =>
          simp only [unsigned, same, Number.finite.injEq, Bool.and_eq_true, Bool.or_eq_true,
            beq_iff_eq]
          constructor
          · rintro ⟨signs, rfl⟩
            refine ⟨rfl, ?_⟩
            by_cases zero : magnitude.steps = 0
            · exact .inr zero
            · have nonzero : (magnitude.steps != 0) = true := bne_iff_ne.mpr zero
              rw [nonzero, Bool.and_true, Bool.and_true] at signs
              exact .inl signs
          · rintro ⟨rfl, rfl | zero⟩
            · exact ⟨rfl, rfl⟩
            · simp [zero]

theorem Scalar.unsigned_eq_iff {value value' : Scalar} (finite : value.IsFinite) :
    value.unsigned = value'.unsigned ↔ value.same value' = true := by
  cases value with
  | number value =>
      cases value' with
      | number value' =>
          rw [Scalar.unsigned, Scalar.unsigned, Scalar.number.injEq]
          exact Number.unsigned_eq_iff finite
      | null | boolean _ | string _ => simp [Scalar.unsigned, Scalar.same]
  | null | boolean _ | string _ => cases value' <;> simp [Scalar.unsigned, Scalar.same]

namespace Json

section

variable (order : KeyOrder)

/-- The fields of an alike object, each settled, are the same up to their order. -/
theorem perm_of_alike_fields {fields fields' : List (String × Json)}
    (distinct : (fields.map Prod.fst).Nodup) (distinct' : (fields'.map Prod.fst).Nodup)
    (sameKeys : (fields.map Prod.fst).Perm (fields'.map Prod.fst))
    (each : ∀ key value value', fields.lookup key = some value → fields'.lookup key = some value' →
      settled order value = settled order value') :
    (fields.map fun field => (field.1, settled order field.2)).Perm
      (fields'.map fun field => (field.1, settled order field.2)) := by
  have nodup {fields : List (String × Json)} (distinct : (fields.map Prod.fst).Nodup) :
      (fields.map fun field => (field.1, settled order field.2)).Nodup :=
    .of_map Prod.fst (by rwa [Lookup.map_fst_map])
  have inside {fields fields' : List (String × Json)} (distinct : (fields.map Prod.fst).Nodup)
      (sameKeys : (fields.map Prod.fst).Perm (fields'.map Prod.fst))
      (each : ∀ key value value', fields.lookup key = some value →
        fields'.lookup key = some value' → settled order value = settled order value')
      {field : String × Json}
      (member : field ∈ fields.map fun field => (field.1, settled order field.2)) :
      field ∈ fields'.map fun field => (field.1, settled order field.2) := by
    obtain ⟨⟨key, value⟩, inFields, rfl⟩ := List.mem_map.mp member
    have isKey := sameKeys.mem_iff.mp (List.mem_map_of_mem (f := Prod.fst) inFields)
    obtain ⟨⟨key', value'⟩, inFields', rfl⟩ := List.mem_map.mp isKey
    obtain ⟨other, found'⟩ := Option.ne_none_iff_exists'.mp fun missing =>
      Lookup.lookup_eq_none_iff.mp missing (List.mem_map_of_mem (f := Prod.fst) inFields')
    refine List.mem_map.mpr ⟨(key', other), Lookup.mem_of_lookup found', ?_⟩
    rw [each key' value other ((Lookup.lookup_eq_some_iff distinct).mpr inFields) found']
  rw [List.perm_ext_iff_of_nodup (nodup distinct) (nodup distinct')]
  exact fun field => ⟨inside distinct sameKeys each, inside distinct' sameKeys.symm
    fun key value value' found found' => (each key value' value found' found).symm⟩

/-- Values that are alike settle to the same value. -/
theorem Alike.settled_eq {value value' : Json} (alike : Alike value value')
    (wellFormed : WellFormed value) (wellFormed' : WellFormed value') :
    settled order value = settled order value' := by
  induction alike with
  | leaf same =>
      rw [settled_leaf, settled_leaf,
        (Scalar.unsigned_eq_iff (wellFormed_leaf.mp wellFormed)).mpr same]
  | @array items items' sameLength _ ih =>
      rw [settled_array, settled_array]
      refine congrArg _ (List.ext_getElem? fun place => ?_)
      rw [List.getElem?_map, List.getElem?_map]
      cases found : items[place]? with
      | none =>
          rw [List.getElem?_eq_none_iff] at found
          rw [List.getElem?_eq_none_iff.mpr (sameLength ▸ found)]
      | some item =>
          have inside : place < items'.length :=
            sameLength ▸ (List.getElem?_eq_some_iff.mp found).1
          have found' := List.getElem?_eq_getElem inside
          rw [found', Option.map_some, Option.map_some]
          exact congrArg some (ih place item _ found found'
            (wellFormed_array.mp wellFormed item (List.mem_of_getElem? found))
            (wellFormed_array.mp wellFormed' _ (List.mem_of_getElem? found')))
  | @object fields fields' sameKeys _ ih =>
      obtain ⟨distinct, each⟩ := wellFormed_object.mp wellFormed
      obtain ⟨distinct', each'⟩ := wellFormed_object.mp wellFormed'
      rw [settled_object, settled_object, ← KeyOrder.fields_map, ← KeyOrder.fields_map]
      refine congrArg _ (order.fields_eq_of_perm (by rwa [Lookup.map_fst_map])
        (perm_of_alike_fields order distinct distinct' sameKeys
          fun key value value' found found' => ih key value value' found found'
            (each _ (Lookup.mem_of_lookup found)) (each' _ (Lookup.mem_of_lookup found'))))

/-- Values that settle to the same value are alike. -/
theorem alike_of_settled_eq {value : Json} (wellFormed : WellFormed value) :
    ∀ {value' : Json}, WellFormed value' → settled order value = settled order value' →
      Alike value value' := by
  induction wellFormed with
  | @leaf scalar finite =>
      rintro (scalar' | items' | fields') _ same
      · rw [settled_leaf, settled_leaf, Tree.leaf.injEq] at same
        exact .leaf ((Scalar.unsigned_eq_iff finite).mp same)
      · rw [settled_leaf, settled_array] at same
        cases same
      · rw [settled_leaf, settled_object] at same
        cases same
  | @array items _ ih =>
      rintro (scalar' | items' | fields') wellFormed' same
      · rw [settled_leaf, settled_array] at same
        cases same
      · rw [settled_array, settled_array, Tree.array.injEq] at same
        refine .array (by simpa using congrArg List.length same)
          fun place item item' found found' => ?_
        refine ih item (List.mem_of_getElem? found)
          (wellFormed_array.mp wellFormed' item' (List.mem_of_getElem? found')) ?_
        simpa [found, found'] using congrArg (·[place]?) same
      · rw [settled_array, settled_object] at same
        cases same
  | @object fields distinct _ ih =>
      rintro (scalar' | items' | fields') wellFormed' same
      · rw [settled_leaf, settled_object] at same
        cases same
      · rw [settled_array, settled_object] at same
        cases same
      · obtain ⟨distinct', each'⟩ := wellFormed_object.mp wellFormed'
        rw [settled_object, settled_object, Tree.object.injEq] at same
        refine .object ?_ fun key inner inner' found found' => ?_
        · have keys := congrArg (List.map Prod.fst) same
          rw [Lookup.map_fst_map, Lookup.map_fst_map] at keys
          refine ((order.fields_perm fields).map Prod.fst).symm.trans ?_
          rw [keys]
          exact (order.fields_perm fields').map Prod.fst
        · refine ih (key, inner) (Lookup.mem_of_lookup found)
            (each' _ (Lookup.mem_of_lookup found')) ?_
          have values := congrArg (List.lookup key) same
          rw [lookup_settled order distinct, lookup_settled order distinct', found, found'] at values
          exact Option.some.inj values

/-- What values settle to tells them apart as far as they are not alike. -/
theorem settled_eq_iff_alike {value value' : Json} (wellFormed : WellFormed value)
    (wellFormed' : WellFormed value') :
    settled order value = settled order value' ↔ Alike value value' :=
  ⟨alike_of_settled_eq order wellFormed wellFormed',
    fun alike => alike.settled_eq order wellFormed wellFormed'⟩

/-- **A canonical text stands for the values that are alike.** -/
theorem canonicalText_eq_iff {value value' : Json} (wellFormed : WellFormed value)
    (wellFormed' : WellFormed value') (indent : Number) :
    canonicalText (.ofNumber indent) order value = canonicalText (.ofNumber indent) order value'
      ↔ Alike value value' := by
  rw [← settled_eq_iff_alike order wellFormed wellFormed']
  constructor
  · intro same
    have read := congrArg parse? same
    rw [parse?_canonicalText (Layout.blank_ofNumber indent) wellFormed,
      parse?_canonicalText (Layout.blank_ofNumber indent) wellFormed'] at read
    exact Option.some.inj read
  · intro same
    rw [← canonicalText_settled _ order wellFormed, same, canonicalText_settled _ order wellFormed']

end

/-! ## The order of keys -/

/-- Something holds of the keys of every object in a value. -/
inductive EachObject (holds : List String → Prop) : Json → Prop where
  | leaf (value : Scalar) : EachObject holds (.leaf value)
  | array {items : List Json} (each : ∀ item ∈ items, EachObject holds item) :
      EachObject holds (.array items)
  | object {fields : List (String × Json)} (keys : holds (fields.map Prod.fst))
      (each : ∀ field ∈ fields, EachObject holds field.2) : EachObject holds (.object fields)

@[simp] theorem eachObject_leaf {holds : List String → Prop} (value : Scalar) :
    EachObject holds (.leaf value) := .leaf value

@[simp] theorem eachObject_array {holds : List String → Prop} {items : List Json} :
    EachObject holds (.array items) ↔ ∀ item ∈ items, EachObject holds item :=
  ⟨fun each => by cases each with | array each => exact each, .array⟩

@[simp] theorem eachObject_object {holds : List String → Prop} {fields : List (String × Json)} :
    EachObject holds (.object fields)
      ↔ holds (fields.map Prod.fst) ∧ ∀ field ∈ fields, EachObject holds field.2 :=
  ⟨fun each => by cases each with | object keys each => exact ⟨keys, each⟩,
    fun ⟨keys, each⟩ => .object keys each⟩

theorem eachObject_true (value : Json) : EachObject (fun _ => True) value := by
  induction value using Tree.induct with
  | leaf value => exact .leaf value
  | array _ ih => exact .array ih
  | object _ ih => exact .object trivial ih

namespace KeyOrder

variable (order : KeyOrder)

/-- Whether a text lists a key before another one: number-like keys come first, whatever the order
of keys, and what objects leave open the order of keys decides. -/
def WritesBefore (first second : String) : Prop :=
  Fields.keyBefore first second = true
    ∨ Fields.keyBefore second first = false ∧ order.before first second = true

/-- Of two keys that differ one comes before the other. -/
theorem before_of_ne {first second : String} (differ : first ≠ second)
    (notAfter : order.before second first = false) : order.before first second = true := by
  by_contra notBefore
  exact differ (order.eq_of_not_before (Bool.not_eq_true _ ▸ notBefore) notAfter)

theorem map_fst_fields {β : Type} (fields : List (String × β)) :
    (order.fields fields).map Prod.fst
      = Sorting.sort Fields.keyBefore (Sorting.sort order.before (fields.map Prod.fst)) := by
  rw [KeyOrder.fields, Fields.inKeyOrder, Sorting.map_sort Fields.keyBefore Prod.fst,
    Sorting.map_sort order.before Prod.fst]

/-- An object that was filled in an order of keys lists its keys so. -/
theorem pairwise_writesBefore {β : Type} {fields : List (String × β)}
    (distinct : (fields.map Prod.fst).Nodup) :
    ((order.fields fields).map Prod.fst).Pairwise order.WritesBefore := by
  have nodup := order.nodup_fields.mpr distinct
  rw [map_fst_fields] at nodup ⊢
  refine (nodup.and (Sorting.pairwise_sort Fields.ranks_keyBefore
    (Sorting.sorted_sort order.ranks_before (fields.map Prod.fst)))).imp ?_
  rintro first second ⟨differ, notAfter, notAfterTies⟩
  cases isBefore : Fields.keyBefore first second with
  | true => exact .inl isBefore
  | false => exact .inr ⟨notAfter, order.before_of_ne differ (notAfterTies isBefore)⟩

/-- Keys that are listed as a text lists them are in the order of keys where no key is listed
before one that the order puts first. -/
theorem pairwise_before_iff {keys : List String} (distinct : keys.Nodup)
    (written : keys.Pairwise order.WritesBefore) :
    keys.Pairwise (fun first second => order.before first second = true)
      ↔ ∀ first ∈ keys, ∀ second ∈ keys, order.before first second = true →
          Fields.keyBefore second first = false := by
  have asymm {first second : String} (isBefore : order.before first second = true) :
      order.before second first = false := order.ranks_before.asymm isBefore
  constructor
  · intro sorted first inFirst second inSecond isBefore
    have differ : first ≠ second := by
      rintro rfl
      exact Bool.false_ne_true ((asymm isBefore).symm.trans isBefore)
    let beside (first second : String) : Prop :=
      (order.before first second = true ∧ order.WritesBefore first second)
        ∨ order.before second first = true ∧ order.WritesBefore second first
    have : Std.Symm beside := ⟨fun _ _ => Or.symm⟩
    have ordered : keys.Pairwise beside := (sorted.and written).imp .inl
    rcases ordered.forall inFirst inSecond differ with
      ⟨_, isKeyBefore | ⟨notKeyBefore, _⟩⟩ | ⟨isAfter, _⟩
    · exact Fields.ranks_keyBefore.asymm isKeyBefore
    · exact notKeyBefore
    · exact absurd isAfter (by simp [asymm isBefore])
  · intro heeded
    refine (written.and distinct).imp_of_mem fun {first second} inFirst inSecond holds => ?_
    obtain ⟨isKeyBefore | ⟨_, isBefore⟩, differ⟩ := holds
    · by_contra notBefore
      have isAfter := order.before_of_ne (Ne.symm differ) (Bool.not_eq_true _ ▸ notBefore)
      exact Bool.false_ne_true ((heeded second inSecond first inFirst isAfter).symm.trans isKeyBefore)
    · exact isBefore

end KeyOrder

section

variable (order : KeyOrder)

/-- What holds of the keys of the objects of a settled value, when it is told by the keys of the
objects that have settled. -/
theorem eachObject_settled_iff {holds holds' : List String → Prop} {value : Json}
    (wellFormed : WellFormed value)
    (keys : ∀ fields : List (String × Json), (fields.map Prod.fst).Nodup →
      (holds ((order.fields fields).map Prod.fst) ↔ holds' (fields.map Prod.fst))) :
    EachObject holds (settled order value) ↔ EachObject holds' value := by
  induction wellFormed with
  | leaf _ => simp
  | array _ ih =>
      rw [settled_array, eachObject_array, eachObject_array, List.forall_mem_map]
      exact forall₂_congr ih
  | object distinct _ ih =>
      rw [settled_object, eachObject_object, eachObject_object, Lookup.map_fst_map,
        keys _ distinct, List.forall_mem_map]
      refine and_congr_right fun _ => ⟨fun each field member => ?_, fun each field member => ?_⟩
      · exact (ih field member).mp (each field (KeyOrder.mem_fields.mpr member))
      · exact (ih field (KeyOrder.mem_fields.mp member)).mpr
          (each field (KeyOrder.mem_fields.mp member))

/-- **The order of keys in a canonical text.**  The text of a value is that of a value that is alike
to it, in which every object lists number-like keys first and the others in the order of keys; so all
its keys are in the order of keys exactly where no number-like key is to come after another one. -/
theorem canonicalText_keys {value : Json} (wellFormed : WellFormed value) (layout : Layout) :
    ∃ form, canonicalText layout order value = text layout form ++ "\n" ∧ Alike value form
      ∧ EachObject (List.Pairwise order.WritesBefore) form
      ∧ (EachObject (List.Pairwise fun first second => order.before first second = true) form
        ↔ EachObject (fun keys => ∀ first ∈ keys, ∀ second ∈ keys,
            order.before first second = true → Fields.keyBefore second first = false) value) := by
  refine ⟨settled order value, ?_, alike_settled order wellFormed, ?_, ?_⟩
  · rw [canonicalText, text_eq, text_eq, settled, chars_unsigned]
  · exact (eachObject_settled_iff order wellFormed fun fields distinct =>
      iff_true_intro (order.pairwise_writesBefore distinct)).mpr (eachObject_true value)
  · refine eachObject_settled_iff order wellFormed fun fields distinct => ?_
    rw [order.pairwise_before_iff (order.nodup_fields.mpr distinct)
      (order.pairwise_writesBefore distinct)]
    have sameKeys := (order.fields_perm fields).map Prod.fst
    simp only [sameKeys.mem_iff]

/-- The identifier of a document does not come before a number-like key. -/
example : canonicalText .line .document (.object [("_id", string "a"), ("1", boolean true)])
    = "\x7b\"1\":true,\"_id\":\"a\"\x7d\n" := by decide +kernel

end

end Json

end DocStore
