import DocStore.Proofs.Constraint.Spec
import DocStore.Proofs.Database.Histories
/-!
# Types of fields

No field of a collection has two declared types, whatever operations come one after another
(`oneType_outcome`).  A specification declares a type of a field at most once, since what callers
pass has each key once, and constraints are added only where no field would get a second type.
-/

set_option autoImplicit false

namespace DocStore

/-- No field has two types. -/
def OneType (constraints : List Constraint) : Prop :=
  ∀ field first second, ⟨field, .hasType first⟩ ∈ constraints →
    ⟨field, .hasType second⟩ ∈ constraints → first = second

theorem OneType.subset {constraints constraints' : List Constraint} (oneType : OneType constraints)
    (within : constraints' ⊆ constraints) : OneType constraints' :=
  fun field first second member member' =>
    oneType field first second (within member) (within member')

/-! ## Specifications -/

/-- The value of a key that a list has once. -/
theorem eq_of_mem_of_nodup {β : Type} {entries : List (String × β)} {key : String} {first second : β}
    (distinct : (entries.map Prod.fst).Nodup) (inFirst : (key, first) ∈ entries)
    (inSecond : (key, second) ∈ entries) : first = second := by
  have found := (Lookup.lookup_eq_some_iff distinct).mpr inFirst
  exact Option.some.inj (found.symm.trans ((Lookup.lookup_eq_some_iff distinct).mpr inSecond))

/-- A specification gives no field two types. -/
theorem oneType_readSpec {checkTypes : Bool} {spec : Caller.Value} (distinct : spec.Distinct)
    {constraints : List Constraint} (reads : readSpec checkTypes spec = .ok constraints) :
    OneType constraints := by
  intro field first second inFirst inSecond
  obtain ⟨value, ⟨rules, inside, isRule⟩, given⟩ := (Spec.mem_readSpec reads).mp inFirst
  obtain ⟨value', ⟨rules', inside', isRule'⟩, given'⟩ := (Spec.mem_readSpec reads).mp inSecond
  obtain rfl := eq_of_mem_of_nodup distinct.fields.1 inside inside'
  obtain rfl := eq_of_mem_of_nodup (Spec.nodup_rulesOf distinct inside) isRule isRule'
  exact Option.some.inj ((Spec.given_hasType.mp given).symm.trans (Spec.given_hasType.mp given'))

namespace Database

variable {keeper : Keeper} {generator : Nat → Identifier.Generated}

/-- The constraints of a collection, in the order in which they are kept. -/
def checksOf (name : String) (cabinet : Cabinet) : List Constraint :=
  (cabinet.held name).checks.map Prod.snd

/-- The specification that callers pass to an operation that adds constraints has each key once. -/
def Operation.Specified : Operation → Prop
  | .addConstraint _ spec => spec.Distinct
  | _ => True

/-! ## Changes of constraints -/

theorem map_snd_put_subset {β : Type} (key : String) (value : β) (entries : List (String × β)) :
    (Content.json.put key value entries).map Prod.snd ⊆ entries.map Prod.snd ++ [value] := by
  induction entries with
  | nil => exact List.Subset.refl _
  | cons entry rest ih =>
      obtain ⟨head, first⟩ := entry
      rw [Content.put]
      split
      · refine List.cons_subset.mpr ⟨by simp, fun found member => ?_⟩
        exact List.mem_append_left _ (List.mem_cons_of_mem _ member)
      · exact List.cons_subset_cons first ih

section

variable {name wanted : String} {cabinet : Cabinet}

theorem mem_active {constraint : Constraint} :
    constraint ∈ cabinet.active name ↔ constraint ∈ checksOf name cabinet :=
  (Sorting.sort_perm _ _).mem_iff

theorem checksOf_opened (other : String) :
    checksOf wanted (cabinet.opened other) = checksOf wanted cabinet := by
  rw [checksOf, Cabinet.held_opened, checksOf]

theorem checksOf_modify_of_ne {change : Drawer → Drawer} (elsewhere : wanted ≠ name) :
    checksOf wanted (cabinet.modify name change) = checksOf wanted cabinet := by
  rw [checksOf, Cabinet.held, Cabinet.drawer?_modify, if_neg elsewhere, checksOf, Cabinet.held]

/-- A change of a collection adds nothing but what it adds to a collection that exists. -/
theorem checksOf_modify_subset {change : Drawer → Drawer} {more : List Constraint}
    (within : ∀ drawer : Drawer,
      (change drawer).checks.map Prod.snd ⊆ drawer.checks.map Prod.snd ++ more) :
    checksOf wanted (cabinet.modify name change) ⊆ checksOf wanted cabinet ++ more := by
  unfold checksOf
  cases there : cabinet.drawer? name with
  | none =>
      rw [Keeper.modify_of_missing there]
      exact List.subset_append_left _ _
  | some drawer =>
      rw [Cabinet.held_modify (there ▸ rfl)]
      split
      next same => exact same ▸ within _
      next => exact List.subset_append_left _ _

theorem checksOf_modify_same {change : Drawer → Drawer}
    (same : ∀ drawer : Drawer, (change drawer).checks = drawer.checks) :
    checksOf wanted (cabinet.modify name change) ⊆ checksOf wanted cabinet := by
  rw [← List.append_nil (checksOf wanted cabinet)]
  refine checksOf_modify_subset fun drawer => ?_
  rw [same, List.append_nil]
  exact List.Subset.refl _

theorem checksOf_withoutDrawer_subset :
    checksOf wanted (cabinet.withoutDrawer name) ⊆ checksOf wanted cabinet := by
  rw [checksOf, Cabinet.held, Cabinet.drawer?_withoutDrawer]
  split
  · exact List.nil_subset _
  · exact List.Subset.refl _

theorem checksOf_dropCheck_subset (constraint : Constraint) :
    checksOf wanted (dropCheck keeper name constraint cabinet).2 ⊆ checksOf wanted cabinet := by
  rw [← List.append_nil (checksOf wanted cabinet)]
  refine checksOf_modify_subset fun drawer => ?_
  rw [List.append_nil]
  exact List.map_subset _ List.filter_sublist.subset

theorem checksOf_addCheck_subset (constraint : Constraint) :
    checksOf wanted (addCheck keeper name constraint cabinet).2
      ⊆ checksOf wanted cabinet ++ [constraint] := by
  unfold addCheck
  split
  · exact List.subset_append_left _ _
  · exact checksOf_modify_subset fun drawer => map_snd_put_subset _ constraint drawer.checks

theorem checksOf_addCheck_of_ne (elsewhere : wanted ≠ name) (constraint : Constraint) :
    checksOf wanted (addCheck keeper name constraint cabinet).2 = checksOf wanted cabinet := by
  unfold addCheck
  split
  · rfl
  · exact checksOf_modify_of_ne elsewhere

theorem checksOf_added_subset (constraints : List Constraint) :
    checksOf wanted (inTurn (addCheck keeper name) constraints cabinet).2
      ⊆ checksOf wanted cabinet ++ constraints := by
  induction constraints generalizing cabinet with
  | nil => exact List.subset_append_left _ _
  | cons constraint rest ih =>
      intro found member
      rcases List.mem_append.mp (ih member) with member | member
      · rcases List.mem_append.mp (checksOf_addCheck_subset constraint member) with member | member
        · exact List.mem_append_left _ member
        · exact List.mem_append_right _ (List.mem_cons.mpr (.inl (List.mem_singleton.mp member)))
      · exact List.mem_append_right _ (List.mem_cons_of_mem _ member)

/-- What is not in conflict with the constraints in force gives no field another type. -/
theorem eq_of_no_conflict {constraints : List Constraint} {field : String} {first second : JsonType}
    (noConflict : @Constraints.conflict? .json constraints ⟨field, .hasType second⟩ = none)
    (member : ⟨field, .hasType first⟩ ∈ constraints) : first = second := by
  have none := List.findSome?_eq_none_iff.mp (Option.map_eq_none_iff.mp noConflict) _ member
  by_contra differ
  rw [Content.otherType?, if_pos ⟨rfl, differ⟩] at none
  cases none

theorem oneType_addition {spec : Caller.Value} (distinct : spec.Distinct)
    (oneType : OneType (checksOf wanted cabinet)) :
    OneType (checksOf wanted (addition keeper name spec cabinet).2) := by
  unfold addition
  split
  · exact oneType
  · exact oneType
  next first rest isRequest =>
    split
    · exact oneType
    next noConflict =>
      by_cases elsewhere : wanted = name
      · subst elsewhere
        have requested : OneType (first :: rest) := by
          unfold Constraints.requested at isRequest
          cases reads : readSpec true spec with
          | error refusal =>
              rw [reads] at isRequest
              cases isRequest
          | ok constraints =>
              rw [reads] at isRequest
              cases isRequest
              exact oneType_readSpec distinct reads
        -- Two types of a field are both old, both new, or one of each, and then they do not conflict.
        have settles {field : String} {old new : JsonType}
            (isOld : ⟨field, .hasType old⟩ ∈ checksOf wanted cabinet)
            (isNew : ⟨field, .hasType new⟩ ∈ first :: rest) : old = new :=
          eq_of_no_conflict (List.findSome?_eq_none_iff.mp noConflict _ isNew) (mem_active.mpr isOld)
        refine OneType.subset ?_ (checksOf_added_subset (first :: rest))
        rw [checksOf_opened]
        intro field type type' member member'
        rcases List.mem_append.mp member with isOld | isNew
        · rcases List.mem_append.mp member' with isOld' | isNew'
          · exact oneType field type type' isOld isOld'
          · exact settles isOld isNew'
        · rcases List.mem_append.mp member' with isOld' | isNew'
          · exact (settles isOld' isNew).symm
          · exact requested field type type' isNew isNew'
      · refine inTurn_induction (fun later => OneType (checksOf wanted later))
          (fun constraint later oneType => ?_) _ ?_
        · rwa [checksOf_addCheck_of_ne elsewhere]
        · rwa [checksOf_opened]

theorem Stores.checksOf_subset {written : Except Failure String × Cabinet}
    (stores : Stores keeper name cabinet written) :
    checksOf wanted written.2 ⊆ checksOf wanted cabinet := by
  cases stores with
  | refused => exact List.Subset.refl _
  | stored => exact checksOf_modify_same fun _ => rfl

end

/-- **No field gets two types**, whatever an operation comes to. -/
theorem oneType_outcome {operation : Operation} (distinct : operation.Distinct)
    (specified : operation.Specified) {name : String} {state : Cabinet × Nat}
    (oneType : OneType (checksOf name state.1)) :
    OneType (checksOf name (outcome keeper generator operation state).2.1) := by
  have settles {α β : Type} {result : Except Failure β}
      {next : β → Except Failure α × (Cabinet × Nat)}
      (goesOn : ∀ value, result = .ok value → OneType (checksOf name (next value).2.1)) :
      OneType (checksOf name (settle result state next).2.1) :=
    settle_induction (fun later : Cabinet × Nat => OneType (checksOf name later.1)) oneType goesOn
  cases operation with
  | listCollections => exact oneType
  | collectionExists | find | findOne | count | listConstraints => exact settles fun _ _ => oneType
  | findOneById => exact settles fun _ _ => settles fun _ _ => oneType
  | createCollection =>
      refine settles fun opened _ => ?_
      rwa [checksOf_opened]
  | dropCollection => exact settles fun _ _ => oneType.subset checksOf_withoutDrawer_subset
  | insert collection document =>
      refine settles fun opened _ => settles fun fields isBody => ?_
      obtain ⟨wellFormed, noId⟩ := of_body distinct isBody
      rw [← checksOf_opened opened] at oneType
      exact oneType.subset (stores_insertion wellFormed noId).checksOf_subset
  | save collection document =>
      refine settles fun opened _ => settles fun fields isBody => ?_
      obtain ⟨wellFormed, noId⟩ := of_body distinct isBody
      rw [← checksOf_opened opened] at oneType
      exact oneType.subset (stores_saving wellFormed noId).checksOf_subset
  | remove | removeOne | removeOneById =>
      exact settles fun _ _ => settles fun _ _ =>
        oneType.subset (checksOf_modify_same fun _ => rfl)
  | addConstraint collection spec =>
      exact settles fun _ _ => oneType_addition specified oneType
  | removeConstraint collection spec =>
      refine settles fun named _ => ?_
      show OneType (checksOf name (subtraction keeper named spec state.1).2)
      unfold subtraction
      split
      · exact oneType
      · exact inTurn_induction (fun later => OneType (checksOf name later))
          (fun constraint _ oneType => oneType.subset (checksOf_dropCheck_subset constraint)) _
          oneType

end Database

end DocStore
