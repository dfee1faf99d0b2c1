import DocStore.Proofs.Constraint.Spec
import DocStore.Proofs.Database.ById
import DocStore.Proofs.Database.Frame
import DocStore.Proofs.Database.Slots
/-!
# Adding, removing and listing constraints

The constraints of a collection are a set: adding those that a specification asks for unites the
two, removing takes the one from the other, and listing tells each once, in the order of the names.
A specification is settled as a whole before anything is changed, so what is refused changes
nothing.  `Session.Begins.constrains` says this of every collection and every specification after
any operations, over either storage.

A storage has a slot for each name, and constraints are put into slots one after another.  So one
step adds or removes exactly one element of the set as long as the slots tell the names apart
(`ToldApart.mem_addCheck_iff`, `ToldApart.mem_dropCheck_iff`), and the steps for a whole
specification are an induction on what it asks for (`ToldApart.added`, `ToldApart.dropped`).
-/

set_option autoImplicit false

namespace DocStore

open Files (Apart Named)
open Host (Machine)

namespace Database

/-! ## One constraint -/

section

variable {keeper : Keeper} {cabinet : Cabinet} {name : String} {names : Set String}
  {constraint other : Constraint}

/-- The constraints of a collection are in their slots, and they have some names, which the slots
tell apart. -/
structure ToldApart (keeper : Keeper) (names : Set String) (name : String) (cabinet : Cabinet) :
    Prop where
  slotted : cabinet.Slotted keeper.slot
  apart : Set.InjOn keeper.slot names
  within : ∀ constraint ∈ checksOf name cabinet, constraint.name ∈ names

/-- The constraints of a collection are those that are found in their slots. -/
theorem mem_checksOf_iff (slotted : cabinet.Slotted keeper.slot) :
    constraint ∈ checksOf name cabinet
      ↔ (cabinet.held name).checks.lookup (keeper.slot constraint.name) = some constraint := by
  have inSlots := slotted.held name
  rw [Lookup.lookup_eq_some_iff inSlots.checksDistinct, checksOf, List.mem_map]
  constructor
  · rintro ⟨entry, inside, rfl⟩
    rwa [← inSlots.of_mem_checks inside]
  · exact fun inside => ⟨_, inside, rfl⟩

section

variable (told : ToldApart keeper names name cabinet)
include told

theorem ToldApart.opened (named : Named name) :
    ToldApart keeper names name (cabinet.opened name) where
  slotted := told.slotted.opened named
  apart := told.apart
  within := by
    rw [checksOf_opened]
    exact told.within

/-- Constraints in the same slot are the same. -/
theorem ToldApart.eq_of_slot_eq (inside : other ∈ checksOf name cabinet)
    (inNames : constraint.name ∈ names)
    (same : keeper.slot other.name = keeper.slot constraint.name) : other = constraint :=
  Constraint.name_injective (told.apart (told.within other inside) inNames same)

/-- A slot is taken exactly when its own constraint is there. -/
theorem ToldApart.taken_iff (inNames : constraint.name ∈ names) :
    ((cabinet.held name).checks.lookup (keeper.slot constraint.name)).isSome = true
      ↔ constraint ∈ checksOf name cabinet := by
  constructor
  · intro taken
    obtain ⟨other, found⟩ := Option.isSome_iff_exists.mp taken
    have isSlot := (told.slotted.held name).checks _ _ found
    have inside : other ∈ checksOf name cabinet :=
      (mem_checksOf_iff told.slotted).mpr (isSlot ▸ found)
    exact told.eq_of_slot_eq inside inNames isSlot.symm ▸ inside
  · intro inside
    rw [(mem_checksOf_iff told.slotted).mp inside]
    rfl

/-- Adding a constraint tells whether it was not there. -/
theorem ToldApart.addCheck_tells (inNames : constraint.name ∈ names) :
    (addCheck keeper name constraint cabinet).1 = true ↔ constraint ∉ checksOf name cabinet := by
  rw [addCheck, ← told.taken_iff inNames]
  split
  next taken => simp [taken]
  next free => simp [free]

/-- **Adding a constraint** adds it to the set. -/
theorem ToldApart.mem_addCheck_iff (there : (cabinet.drawer? name).isSome)
    (inNames : constraint.name ∈ names) :
    other ∈ checksOf name (addCheck keeper name constraint cabinet).2
      ↔ other ∈ checksOf name cabinet ∨ other = constraint := by
  have taken := told.taken_iff inNames
  have slotted := slotted_addCheck told.slotted name constraint
  unfold addCheck at slotted ⊢
  split at slotted
  next isTaken =>
    rw [if_pos isTaken]
    exact (or_iff_left_of_imp (· ▸ taken.mp isTaken)).symm
  next isFree =>
    rw [if_neg isFree, mem_checksOf_iff slotted, Cabinet.held_modify there, if_pos rfl,
      Drawer.putCheckAt, Content.lookup_put]
    split
    next same =>
      -- The slot was free, so what is found in it is what has been put there.
      have outside : other ∉ checksOf name cabinet := fun inside =>
        isFree (taken.mpr (told.eq_of_slot_eq inside inNames same ▸ inside))
      rw [or_iff_right outside, Option.some.injEq, eq_comm]
    next differ =>
      have isOther : other ≠ constraint := fun same => differ (same ▸ rfl)
      rw [or_iff_left isOther, mem_checksOf_iff told.slotted]

theorem ToldApart.addCheck (there : (cabinet.drawer? name).isSome)
    (inNames : constraint.name ∈ names) :
    ToldApart keeper names name (Database.addCheck keeper name constraint cabinet).2 where
  slotted := slotted_addCheck told.slotted name constraint
  apart := told.apart
  within other inside := by
    rcases (told.mem_addCheck_iff there inNames).mp inside with before | rfl
    · exact told.within other before
    · exact inNames

/-- Removing a constraint tells whether it was there. -/
theorem ToldApart.dropCheck_tells (inNames : constraint.name ∈ names) :
    (dropCheck keeper name constraint cabinet).1 = true ↔ constraint ∈ checksOf name cabinet :=
  told.taken_iff inNames

/-- **Removing a constraint** takes it from the set. -/
theorem ToldApart.mem_dropCheck_iff (inNames : constraint.name ∈ names) :
    other ∈ checksOf name (dropCheck keeper name constraint cabinet).2
      ↔ other ∈ checksOf name cabinet ∧ other ≠ constraint := by
  have slotted := slotted_dropCheck told.slotted name constraint
  have lookups (slot : String) :
      ((dropCheck keeper name constraint cabinet).2.held name).checks.lookup slot
        = if slot = keeper.slot constraint.name then none
          else (cabinet.held name).checks.lookup slot := by
    unfold dropCheck
    cases there : cabinet.drawer? name with
    | none =>
        rw [Keeper.modify_of_missing there, Cabinet.held_of_missing there]
        exact (ite_self _).symm
    | some drawer =>
        rw [Cabinet.held_modify (there ▸ rfl), if_pos rfl, Drawer.withoutCheck,
          Content.lookup_remove]
  rw [mem_checksOf_iff slotted, lookups, mem_checksOf_iff told.slotted]
  split
  next same =>
    refine iff_of_false (Option.some_ne_none other).symm ?_
    rintro ⟨found, differ⟩
    exact differ (told.eq_of_slot_eq ((mem_checksOf_iff told.slotted).mpr found) inNames same)
  next differ =>
    have isOther : other ≠ constraint := fun same => differ (same ▸ rfl)
    exact (and_iff_left isOther).symm

theorem ToldApart.dropCheck (inNames : constraint.name ∈ names) :
    ToldApart keeper names name (Database.dropCheck keeper name constraint cabinet).2 where
  slotted := slotted_dropCheck told.slotted name constraint
  apart := told.apart
  within other inside := told.within other ((told.mem_dropCheck_iff inNames).mp inside).1

end

end

/-! ## One constraint after another -/

section

variable {keeper : Keeper} {cabinet : Cabinet} {name : String}

/-- Adding a constraint creates no collection. -/
theorem isSome_drawer?_addCheck (constraint : Constraint) (wanted : String) :
    ((addCheck keeper name constraint cabinet).2.drawer? wanted).isSome
      = (cabinet.drawer? wanted).isSome := by
  unfold addCheck
  split
  · rfl
  · rw [Cabinet.drawer?_modify]
    split
    next same => rw [same, Option.isSome_map]
    next => rfl

variable {names : Set String} (told : ToldApart keeper names name cabinet)
  {constraints : List Constraint} (inNames : ∀ constraint ∈ constraints, constraint.name ∈ names)
include told inNames

/-- **Adding constraints in turn** unites them with those that are there, and tells of one that it
is new exactly when one of them was not there. -/
theorem ToldApart.added (there : (cabinet.drawer? name).isSome) :
    ((inTurn (Database.addCheck keeper name) constraints cabinet).1.any id = true
        ↔ ∃ constraint ∈ constraints, constraint ∉ checksOf name cabinet)
      ∧ ∀ other, other ∈ checksOf name (inTurn (Database.addCheck keeper name) constraints cabinet).2
        ↔ other ∈ checksOf name cabinet ∨ other ∈ constraints := by
  induction constraints generalizing cabinet with
  | nil => simp [inTurn]
  | cons constraint rest ih =>
      obtain ⟨inFirst, inRest⟩ := List.forall_mem_cons.mp inNames
      have adds {other : Constraint} :
          other ∈ checksOf name (Database.addCheck keeper name constraint cabinet).2
            ↔ other ∈ checksOf name cabinet ∨ other = constraint :=
        told.mem_addCheck_iff there inFirst
      obtain ⟨restTells, restAdds⟩ := ih (told.addCheck there inFirst) inRest
        ((isSome_drawer?_addCheck constraint name).trans there)
      refine ⟨?_, fun other => ?_⟩
      · simp only [inTurn, List.any_cons, id, Bool.or_eq_true]
        rw [told.addCheck_tells inFirst]
        refine (or_congr_right restTells).trans ⟨?_, ?_⟩
        · rintro (isNew | ⟨other, inside, outside⟩)
          · exact ⟨constraint, List.mem_cons_self, isNew⟩
          · exact ⟨other, List.mem_cons_of_mem _ inside, fun before => outside (adds.mpr (.inl before))⟩
        · rintro ⟨other, inside, outside⟩
          by_cases isFirst : other = constraint
          · exact .inl (isFirst ▸ outside)
          · exact .inr ⟨other, (List.mem_cons.mp inside).resolve_left isFirst,
              fun after => (adds.mp after).elim outside isFirst⟩
      · refine (restAdds other).trans ?_
        rw [adds, List.mem_cons, or_assoc]

/-- **Removing constraints in turn** takes them from those that are there, and tells of one that it
was there exactly when one of them was. -/
theorem ToldApart.dropped :
    ((inTurn (Database.dropCheck keeper name) constraints cabinet).1.any id = true
        ↔ ∃ constraint ∈ constraints, constraint ∈ checksOf name cabinet)
      ∧ ∀ other, other ∈ checksOf name (inTurn (Database.dropCheck keeper name) constraints cabinet).2
        ↔ other ∈ checksOf name cabinet ∧ other ∉ constraints := by
  induction constraints generalizing cabinet with
  | nil => simp [inTurn]
  | cons constraint rest ih =>
      obtain ⟨inFirst, inRest⟩ := List.forall_mem_cons.mp inNames
      have drops {other : Constraint} :
          other ∈ checksOf name (Database.dropCheck keeper name constraint cabinet).2
            ↔ other ∈ checksOf name cabinet ∧ other ≠ constraint :=
        told.mem_dropCheck_iff inFirst
      obtain ⟨restTells, restDrops⟩ := ih (told.dropCheck inFirst) inRest
      refine ⟨?_, fun other => ?_⟩
      · simp only [inTurn, List.any_cons, id, Bool.or_eq_true]
        rw [told.dropCheck_tells inFirst]
        refine (or_congr_right restTells).trans ⟨?_, ?_⟩
        · rintro (before | ⟨other, inside, left⟩)
          · exact ⟨constraint, List.mem_cons_self, before⟩
          · exact ⟨other, List.mem_cons_of_mem _ inside, (drops.mp left).1⟩
        · rintro ⟨other, inside, before⟩
          by_cases isFirst : other = constraint
          · exact .inl (isFirst ▸ before)
          · exact .inr ⟨other, (List.mem_cons.mp inside).resolve_left isFirst,
              drops.mpr ⟨before, isFirst⟩⟩
      · refine (restDrops other).trans ?_
        rw [drops, List.mem_cons, not_or, and_assoc]

end

/-! ## Specifications as a whole -/

/-- A specification asks for a type of a field that has another type. -/
def Contradicts (spec : Caller.Value) (active : List Constraint) : Prop :=
  ∃ field type other, Spec.Requests spec ⟨field, .hasType type⟩
    ∧ ⟨field, .hasType other⟩ ∈ active ∧ other ≠ type

/-- The failure of a field that would get a second type. -/
def contradiction (field : String) (type other : JsonType) : Failure :=
  .ofFault (.typeConflict (.ofString field) (.ofString other.name) (.ofString type.name))

/-- What stands against a constraint is another type of its field. -/
theorem of_conflict? {active : List Constraint} {constraint : Constraint} {failure : Failure}
    (conflict : @Constraints.conflict? .json active constraint = some failure) :
    ∃ field type other, constraint = ⟨field, .hasType type⟩ ∧ ⟨field, .hasType other⟩ ∈ active
      ∧ other ≠ type ∧ failure = contradiction field type other := by
  obtain ⟨field, rule⟩ := constraint
  cases rule with
  | required | notNull => cases conflict
  | hasType type =>
      obtain ⟨shown, found, rfl⟩ := Option.map_eq_some_iff.mp conflict
      obtain ⟨⟨field', rule'⟩, inside, isOther⟩ := List.exists_of_findSome?_eq_some found
      cases rule' with
      | required | notNull => cases isOther
      | hasType other =>
          rw [Content.otherType?] at isOther
          split at isOther
          next differs =>
            obtain ⟨rfl, differ⟩ := differs
            cases isOther
            exact ⟨field', type, other, rfl, inside, differ, rfl⟩
          next => cases isOther

section

variable (keeper : Keeper) (name : String) (spec : Caller.Value) (cabinet : Cabinet)

/-- **What adding the constraints of a specification does**: everything is settled before anything is
changed. -/
inductive Adding : Except Failure Bool × Cabinet → Prop where
  | malformed (refusal : SpecRefusal) (refused : ¬ (Spec.Fits spec ∧ Spec.KnowsTypes spec)) :
      Adding (.error (.ofInput (.spec refusal)), cabinet)
  | contradictory (fits : Spec.Fits spec) (knows : Spec.KnowsTypes spec) {field : String}
      {type other : JsonType} (requested : Spec.Requests spec ⟨field, .hasType type⟩)
      (active : ⟨field, .hasType other⟩ ∈ cabinet.active name) (differ : other ≠ type) :
      Adding (.error (contradiction field type other), cabinet)
  | nothing (fits : Spec.Fits spec) (knows : Spec.KnowsTypes spec)
      (agrees : ¬ Contradicts spec (cabinet.active name)) (empty : ¬ Spec.HasRules spec) :
      Adding (.ok false, cabinet)
  | added (fits : Spec.Fits spec) (knows : Spec.KnowsTypes spec)
      (agrees : ¬ Contradicts spec (cabinet.active name)) (rules : Spec.HasRules spec)
      {constraints : List Constraint}
      (requested : ∀ constraint, constraint ∈ constraints ↔ Spec.Requests spec constraint) :
      Adding (.ok ((inTurn (addCheck keeper name) constraints (cabinet.opened name)).1.any id),
        (inTurn (addCheck keeper name) constraints (cabinet.opened name)).2)

/-- **What removing the constraints of a specification does.** -/
inductive Subtracting : Except Failure Bool × Cabinet → Prop where
  | malformed (refusal : SpecRefusal) (refused : ¬ Spec.Fits spec) :
      Subtracting (.error (.ofInput (.spec refusal)), cabinet)
  | dropped (fits : Spec.Fits spec) {constraints : List Constraint}
      (requested : ∀ constraint, constraint ∈ constraints ↔ Spec.Requests spec constraint) :
      Subtracting (.ok ((inTurn (dropCheck keeper name) constraints cabinet).1.any id),
        (inTurn (dropCheck keeper name) constraints cabinet).2)

variable {spec} (distinct : spec.Distinct)
include distinct

/-- What a specification comes to that is asked for constraints. -/
theorem requested_cases (checkTypes : Bool) :
    (∃ refusal, Constraints.requested checkTypes spec = .error (.ofInput (.spec refusal))
        ∧ ¬ (Spec.Fits spec ∧ (checkTypes = true → Spec.KnowsTypes spec)))
      ∨ ∃ constraints, Constraints.requested checkTypes spec = .ok constraints
        ∧ (Spec.Fits spec ∧ (checkTypes = true → Spec.KnowsTypes spec))
        ∧ ∀ constraint, constraint ∈ constraints ↔ Spec.Requests spec constraint := by
  have readable : (∃ constraints, readSpec checkTypes spec = .ok constraints)
      ↔ Spec.Fits spec ∧ (checkTypes = true → Spec.KnowsTypes spec) :=
    Spec.exists_readSpec_iff distinct
  unfold Constraints.requested
  cases reads : readSpec checkTypes spec with
  | error refusal =>
      refine .inl ⟨refusal, rfl, fun fits => ?_⟩
      obtain ⟨constraints, isOk⟩ := readable.mpr fits
      cases reads.symm.trans isOk
  | ok constraints =>
      exact .inr ⟨constraints, rfl, readable.mp ⟨constraints, reads⟩,
        fun constraint => Spec.mem_readSpec reads⟩

theorem adding_addition : Adding keeper name spec cabinet (addition keeper name spec cabinet) := by
  unfold addition
  rcases requested_cases distinct true with
    ⟨refusal, isRefused, refused⟩ | ⟨constraints, isRead, ⟨fits, knows⟩, requested⟩
  · rw [isRefused]
    exact .malformed refusal fun ⟨fits, knows⟩ => refused ⟨fits, fun _ => knows⟩
  · have hasRules := Spec.hasRules_iff fits (knows rfl)
    rw [isRead]
    cases constraints with
    | nil =>
        have nothing : ∀ constraint, ¬ Spec.Requests spec constraint :=
          fun constraint asked => nomatch (requested constraint).mpr asked
        exact .nothing fits (knows rfl) (fun ⟨_, _, _, asked, _⟩ => nothing _ asked)
          fun rules => (hasRules.mp rules).elim nothing
    | cons first rest =>
        dsimp only
        cases conflict : (first :: rest).findSome?
            (@Constraints.conflict? .json (cabinet.active name)) with
        | some failure =>
            obtain ⟨constraint, inside, conflict⟩ := List.exists_of_findSome?_eq_some conflict
            obtain ⟨field, type, other, rfl, active, differ, rfl⟩ := of_conflict? conflict
            exact .contradictory fits (knows rfl) ((requested _).mp inside) active differ
        | none =>
            refine .added fits (knows rfl) ?_ ?_ requested
            · rintro ⟨field, type, other, asked, active, differ⟩
              exact differ (eq_of_no_conflict
                (List.findSome?_eq_none_iff.mp conflict _ ((requested _).mpr asked)) active)
            · exact hasRules.mpr ⟨first, (requested first).mp List.mem_cons_self⟩

theorem subtracting_subtraction :
    Subtracting keeper name spec cabinet (subtraction keeper name spec cabinet) := by
  unfold subtraction
  rcases requested_cases distinct false with
    ⟨refusal, isRefused, refused⟩ | ⟨constraints, isRead, ⟨fits, _⟩, requested⟩
  · rw [isRefused]
    exact .malformed refusal fun fits => refused ⟨fits, nofun⟩
  · rw [isRead]
    exact .dropped fits requested

end

/-! ## What is reported -/

namespace Contents

/-- The names of the constraints of a collection and of those that a specification asks for. -/
def namesWith (contents : Contents) (name : String) (spec : Caller.Value) : Set String :=
  { text | ∃ constraint, (constraint ∈ contents.constraints name ∨ Spec.Requests spec constraint)
    ∧ constraint.name = text }

/-- What a database reports before and after the constraints of a specification are added to a
collection, and what this tells, as far as the names of the constraints are told apart. -/
structure Added (apart : Prop) (name : String) (spec : Caller.Value) (before after : Contents)
    (result : Except Failure Bool) : Prop where
  /-- A specification of another shape, or with a type of an unknown name, changes nothing. -/
  malformed : ¬ (Spec.Fits spec ∧ Spec.KnowsTypes spec) →
    (∃ refusal, result = .error (.ofInput (.spec refusal))) ∧ after = before
  /-- A specification with another type of a field than the field has changes nothing. -/
  contradictory : Spec.Fits spec → Spec.KnowsTypes spec →
    Contradicts spec (before.constraints name) →
    (∃ field type other, Spec.Requests spec ⟨field, .hasType type⟩
      ∧ ⟨field, .hasType other⟩ ∈ before.constraints name ∧ other ≠ type
      ∧ result = .error (contradiction field type other)) ∧ after = before
  /-- What another specification asks for is united with what was there. -/
  accepted : Spec.Fits spec → Spec.KnowsTypes spec →
    ¬ Contradicts spec (before.constraints name) →
    ∃ isNew, result = .ok isNew
      ∧ (apart →
        (isNew = true ↔ ∃ constraint, Spec.Requests spec constraint
          ∧ constraint ∉ before.constraints name)
        ∧ ∀ constraint, constraint ∈ after.constraints name
          ↔ constraint ∈ before.constraints name ∨ Spec.Requests spec constraint)
      ∧ ∀ other, other ∈ after.collections
        ↔ other ∈ before.collections ∨ other = name ∧ Spec.HasRules spec
  elsewhere : ∀ other, other ≠ name → after.constraints other = before.constraints other
  documents : after.documents = before.documents

/-- What a database reports before and after the constraints of a specification are removed from a
collection, and what this tells, as far as the names of the constraints are told apart. -/
structure Removed (apart : Prop) (name : String) (spec : Caller.Value) (before after : Contents)
    (result : Except Failure Bool) : Prop where
  /-- A specification of another shape changes nothing. -/
  malformed : ¬ Spec.Fits spec →
    (∃ refusal, result = .error (.ofInput (.spec refusal))) ∧ after = before
  /-- What another specification asks for is taken from what was there. -/
  accepted : Spec.Fits spec →
    ∃ wasThere, result = .ok wasThere
      ∧ (apart →
        (wasThere = true ↔ ∃ constraint, Spec.Requests spec constraint
          ∧ constraint ∈ before.constraints name)
        ∧ ∀ constraint, constraint ∈ after.constraints name
          ↔ constraint ∈ before.constraints name ∧ ¬ Spec.Requests spec constraint)
  elsewhere : ∀ other, other ≠ name → after.constraints other = before.constraints other
  documents : after.documents = before.documents
  collections : after.collections = before.collections

end Contents

section

variable {keeper : Keeper} {generator : Nat → Identifier.Generated} {state : Cabinet × Nat}
  {name : String} (named : Named name)
include named

/-- An operation on a collection changes no other. -/
theorem not_changes {operation : Operation} (changes : operation.changed? = some (.ofString name))
    {other : String} (differ : other ≠ name) : ¬ operation.Changes other := fun changes' =>
  differ (changes'.eq ⟨_, changes, checkedName_ofString named⟩)

variable (slotted : state.1.Slotted keeper.slot) {spec : Caller.Value} (distinct : spec.Distinct)
  {apart : Prop} (isApart : apart →
    Set.InjOn keeper.slot ((Contents.ofKeeper keeper state.1).namesWith name spec))
include slotted distinct isApart

omit named distinct in
/-- The constraints of a collection are told apart from those that are asked for. -/
theorem toldApart (holds : apart) :
    ToldApart keeper ((Contents.ofKeeper keeper state.1).namesWith name spec) name state.1 :=
  ⟨slotted, isApart holds, fun constraint inside => ⟨constraint, .inl (mem_active.mpr inside), rfl⟩⟩

/-- What the constraints of a specification come to that are added. -/
theorem added_outcome :
    (Contents.ofKeeper keeper state.1).Added apart name spec
      (.ofKeeper keeper
        (outcome keeper generator (.addConstraint (.ofString name) spec) state).2.1)
      (outcome keeper generator (.addConstraint (.ofString name) spec) state).1 := by
  have spares : (Operation.addConstraint (.ofString name) spec).Spares (.ofKeeper keeper state.1)
      (.ofKeeper keeper
        (outcome keeper generator (.addConstraint (.ofString name) spec) state).2.1) :=
    Operation.spares_outcome trivial
  have isOutcome : outcome keeper generator (.addConstraint (.ofString name) spec) state
      = ((addition keeper name spec state.1).1, ((addition keeper name spec state.1).2, state.2)) := by
    rw [outcome, checkedName_ofString named]
    rfl
  rw [isOutcome] at spares ⊢
  have elsewhere (other : String) (differ : other ≠ name) :=
    (spares.elsewhere other (not_changes named rfl differ)).2.1
  have documents := spares.documents (.inl rfl)
  have adding := adding_addition keeper name state.1 distinct
  generalize addition keeper name spec state.1 = added at elsewhere documents adding ⊢
  cases adding with
  | malformed refusal refused =>
      exact ⟨fun _ => ⟨⟨refusal, rfl⟩, rfl⟩, fun fits knows => absurd ⟨fits, knows⟩ refused,
        fun fits knows => absurd ⟨fits, knows⟩ refused, elsewhere, documents⟩
  | contradictory fits knows requested active differ =>
      refine ⟨fun refused => absurd ⟨fits, knows⟩ refused,
        fun _ _ _ => ⟨⟨_, _, _, requested, active, differ, rfl⟩, rfl⟩,
        fun _ _ agrees => absurd ⟨_, _, _, requested, active, differ⟩ agrees, elsewhere, documents⟩
  | nothing fits knows agrees empty =>
      have nothing (constraint : Constraint) : ¬ Spec.Requests spec constraint := fun asked =>
        empty ((Spec.hasRules_iff fits knows).mpr ⟨constraint, asked⟩)
      refine ⟨fun refused => absurd ⟨fits, knows⟩ refused,
        fun _ _ contradicts => absurd contradicts agrees,
        fun _ _ _ => ⟨false, rfl, fun _ => ⟨?_, fun constraint => ?_⟩, fun other => ?_⟩, elsewhere,
        documents⟩
      · refine iff_of_false Bool.false_ne_true ?_
        rintro ⟨constraint, asked, _⟩
        exact nothing constraint asked
      · exact (or_iff_left (nothing constraint)).symm
      · exact (or_iff_left fun both => empty both.2).symm
  | @added fits knows agrees rules constraints requested =>
      refine ⟨fun refused => absurd ⟨fits, knows⟩ refused,
        fun _ _ contradicts => absurd contradicts agrees,
        fun _ _ _ => ⟨_, rfl, fun holds => ?_, fun other => ?_⟩, elsewhere, documents⟩
      · have told := (toldApart slotted isApart holds).opened named
        obtain ⟨tells, adds⟩ := told.added
          (fun constraint inside => ⟨constraint, .inr ((requested constraint).mp inside), rfl⟩)
          Cabinet.there_opened
        simp only [checksOf_opened, requested, ← mem_active] at tells adds
        exact ⟨tells, adds⟩
      · have there : ((inTurn (addCheck keeper name) constraints (state.1.opened name)).2.drawer?
            other).isSome = ((state.1.opened name).drawer? other).isSome :=
          inTurn_induction
            (fun later => (later.drawer? other).isSome = ((state.1.opened name).drawer? other).isSome)
            (fun constraint later same => (isSome_drawer?_addCheck constraint other).trans same)
            constraints rfl
        rw [mem_collections_iff, mem_collections_iff, there, Cabinet.drawer?_opened]
        split
        next same => simp [same, rules]
        next differ => simp [differ]

/-- What the constraints of a specification come to that are removed. -/
theorem removed_outcome :
    (Contents.ofKeeper keeper state.1).Removed apart name spec
      (.ofKeeper keeper
        (outcome keeper generator (.removeConstraint (.ofString name) spec) state).2.1)
      (outcome keeper generator (.removeConstraint (.ofString name) spec) state).1 := by
  have spares : (Operation.removeConstraint (.ofString name) spec).Spares (.ofKeeper keeper state.1)
      (.ofKeeper keeper
        (outcome keeper generator (.removeConstraint (.ofString name) spec) state).2.1) :=
    Operation.spares_outcome trivial
  have isOutcome : outcome keeper generator (.removeConstraint (.ofString name) spec) state
      = ((subtraction keeper name spec state.1).1,
        ((subtraction keeper name spec state.1).2, state.2)) := by
    rw [outcome, checkedName_ofString named]
    rfl
  rw [isOutcome] at spares ⊢
  have elsewhere (other : String) (differ : other ≠ name) :=
    (spares.elsewhere other (not_changes named rfl differ)).2.1
  have documents := spares.documents (.inr rfl)
  have collections := spares.collections (.inr rfl)
  have subtracting := subtracting_subtraction keeper name state.1 distinct
  generalize subtraction keeper name spec state.1 = removed
    at elsewhere documents collections subtracting ⊢
  cases subtracting with
  | malformed refusal refused =>
      exact ⟨fun _ => ⟨⟨refusal, rfl⟩, rfl⟩, fun fits => absurd fits refused, elsewhere, documents,
        collections⟩
  | dropped fits requested =>
      refine ⟨fun refused => absurd fits refused, fun _ => ⟨_, rfl, fun holds => ?_⟩, elsewhere,
        documents, collections⟩
      obtain ⟨tells, drops⟩ := (toldApart slotted isApart holds).dropped
        fun constraint inside => ⟨constraint, .inr ((requested constraint).mp inside), rfl⟩
      simp only [requested, ← mem_active] at tells drops
      exact ⟨tells, drops⟩

end

/-! ## At every moment -/

namespace Session

/-- What lists the constraints of a collection: they are those that are stored, each of them once,
in the order of the units of their names. -/
structure Lists (session : Session) (machine : Machine) (name : String)
    (constraints : List Constraint) : Prop where
  stored : ∀ constraint, constraint ∈ constraints
    ↔ ∃ slot, (slot, some ⟨constraint.name, constraint⟩) ∈ session.checkSlots machine name
  increasing : constraints.Pairwise fun first second => Text.before first.name second.name = true

section

variable {session : Session} {machine : Machine} {keeper : Keeper}

theorem Stands.lists {generator : Nat → Identifier.Generated} {state : Cabinet × Nat}
    (stands : session.Stands generator keeper state machine)
    (slotted : state.1.Slotted keeper.slot) {name : String} (named : Named name) :
    session.Lists machine name (state.1.active name) where
  stored constraint := by
    have slots := stands.checkSlots_perm slotted named
    simp only [slots.mem_iff, mem_active, checksOf, List.mem_map]
    constructor
    · rintro ⟨entry, inside, rfl⟩
      exact ⟨entry.1, entry, inside, rfl⟩
    · rintro ⟨slot, entry, inside, same⟩
      have isCheck : entry.2 = constraint :=
        congrArg StoredCheck.check (Option.some.inj (Prod.mk.inj same).2)
      exact ⟨entry, inside, isCheck⟩
  increasing := by
    have sorted : (state.1.active name).Pairwise fun first second =>
        Text.before second.name first.name = false :=
      Sorting.sorted_sort (Text.ranks_before.by_part Constraint.name) _
    have differ : (state.1.active name).Pairwise fun first second => first.name ≠ second.name :=
      List.pairwise_map.mp (nodup_names_active slotted)
    refine (sorted.and differ).imp fun {first second} both => ?_
    by_contra notBefore
    exact both.2 (Text.eq_of_not_before (Bool.not_eq_true _ ▸ notBefore) both.1)

end

end Session

/-- A specification that asks for names. -/
def nameRequired : Caller.Value :=
  .object false [("name", .object false [("$required", .scalar (.boolean true))])]

theorem hasRule_nameRequired {field token : String} {value : Caller.Value} :
    Spec.HasRule nameRequired field token value
      ↔ field = "name" ∧ token = "$required" ∧ value = .scalar (.boolean true) := by
  simp [Spec.HasRule, nameRequired, Caller.Value.fields, rulesOf]

theorem fits_nameRequired : Spec.Fits nameRequired where
  isObject := rfl
  rules := by simp [nameRequired, Caller.Value.fields, Caller.Value.isObject]
  tokens field token value isRule := by
    obtain ⟨_, rfl, _⟩ := hasRule_nameRequired.mp isRule
    decide
  types field value isRule := absurd (hasRule_nameRequired.mp isRule).2.1 (by decide)

theorem requests_nameRequired {constraint : Constraint} :
    Spec.Requests nameRequired constraint ↔ constraint = ⟨"name", .required⟩ := by
  obtain ⟨field, rule⟩ := constraint
  cases rule <;> simp [Spec.Requests, hasRule_nameRequired, Rule.token, Rule.Given]

end Database

end DocStore
