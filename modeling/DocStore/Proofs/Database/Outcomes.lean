import DocStore.Proofs.Database.Alone
import DocStore.Proofs.Storage.Keeper
/-!
# What comes of the operations

What an operation of the database comes to over a storage is a function of what the storage keeps
and of how often the generator has been called (`outcome`): it tells the result and the state after
it. `eval_perform` says that performing the operation comes to that, over every storage that obeys
the laws of `Keeper`.  The parts of an operation have outcomes of their own, such as `keep` and
`overwrite` for writing a record.
-/

set_option autoImplicit false

namespace DocStore.Database

open Files (Named)

/-! ## Arguments -/

/-- What comes of going on with what is known without asking. -/
def settle {α β σ : Type} (result : Except Failure β) (state : σ)
    (next : β → Except Failure α × σ) : Except Failure α × σ :=
  match result with
  | .error failure => (.error failure, state)
  | .ok value => next value

theorem eval_settle {α β σ : Type}
    (answer : (request : Request .json) → σ → request.Answer × σ) (result : Except Failure β)
    (next : β → Action α) (state : σ) {reached : β → Except Failure α × σ}
    (goesOn : ∀ value, result = .ok value → Attempt.eval answer (next value) state = reached value) :
    Attempt.eval answer (Attempt.ofExcept result >>= next) state = settle result state reached := by
  cases result with
  | error failure => rfl
  | ok value => exact goesOn value rfl

/-! ## Constraints in force -/

section

variable {slot : String → String} {cabinet : Cabinet} (slotted : cabinet.Slotted slot)
include slotted

/-- A collection asks nothing twice. -/
theorem eq_of_name_eq {name : String} {first second : Constraint}
    (inFirst : first ∈ (cabinet.held name).checks.map Prod.snd)
    (inSecond : second ∈ (cabinet.held name).checks.map Prod.snd)
    (same : first.name = second.name) : first = second := by
  obtain ⟨⟨key, first⟩, member, rfl⟩ := List.mem_map.mp inFirst
  obtain ⟨⟨key', second⟩, member', rfl⟩ := List.mem_map.mp inSecond
  have inSlots := slotted.held name
  have sameKey : key = key' :=
    (inSlots.of_mem_checks member).trans ((congrArg slot same).trans (inSlots.of_mem_checks member').symm)
  subst sameKey
  have found := (Lookup.lookup_eq_some_iff inSlots.checksDistinct).mpr member
  exact Option.some.inj
    (found.symm.trans ((Lookup.lookup_eq_some_iff inSlots.checksDistinct).mpr member'))

end

section

variable (keeper : Keeper) (generator : Nat → Identifier.Generated) {cabinet : Cabinet}
  {calls : Nat} (slotted : cabinet.Slotted keeper.slot) {name : String}
include slotted

/-- The constraints of a collection are listed in the order of their names, in whatever order the
storage gives them. -/
theorem eval_active :
    Attempt.eval (answer keeper.perform generator) (@Constraints.active .json name) (cabinet, calls)
      = (.ok (cabinet.active name), (cabinet, calls)) := by
  obtain ⟨checks, run, reordered⟩ := keeper.checks_eq slotted name
  have step : Attempt.eval (answer keeper.perform generator)
      (@storeOn .json (.checks name)) (cabinet, calls) = (.ok checks, (cabinet, calls)) := by
    rw [eval_storeOn, run]
  rw [Constraints.active, Attempt.eval_bind_ok step]
  have ownName {stored : StoredCheck .json} (member : stored ∈ checks) :
      stored.name = stored.check.name := by
    obtain ⟨entry, _, rfl⟩ := List.mem_map.mp (reordered.mem_iff.mp member)
    rfl
  let sorted := Sorting.sort (fun first second : StoredCheck .json =>
    Text.before first.name second.name) checks
  have sorts : sorted.Perm checks := Sorting.sort_perm _ checks
  have isSorted : Sorting.Sorted (fun first second : Constraint =>
      Text.before first.name second.name) (sorted.map StoredCheck.check) := by
    refine List.pairwise_map.mpr ?_
    refine (Sorting.sorted_sort (Text.ranks_before.by_part StoredCheck.name) checks).imp_of_mem ?_
    intro first second inFirst inSecond notBefore
    dsimp only at notBefore ⊢
    rwa [ownName (sorts.mem_iff.mp inFirst), ownName (sorts.mem_iff.mp inSecond)] at notBefore
  have checked : (sorted.map StoredCheck.check).Perm ((cabinet.held name).checks.map Prod.snd) := by
    refine ((sorts.trans reordered).map StoredCheck.check).trans (.of_eq ?_)
    rw [List.map_map]
    rfl
  have asked : sorted.map StoredCheck.check = cabinet.active name := by
    refine Sorting.eq_sort_of_sorted (Text.ranks_before.by_part Constraint.name) isSorted checked ?_
    intro first inFirst second inSecond notBefore notAfter
    exact eq_of_name_eq slotted (checked.mem_iff.mp inFirst) (checked.mem_iff.mp inSecond)
      (Text.eq_of_not_before notBefore notAfter)
  rw [← asked]
  rfl

/-- A document is refused exactly when it breaks a constraint that is in force, with all that it
breaks. -/
theorem eval_enforce (document : Json) :
    Attempt.eval (answer keeper.perform generator) (@Constraints.enforce .json name document)
        (cabinet, calls)
      = (if violations document (cabinet.active name) = [] then .ok ()
          else .error (.ofFault (.violation (.ofString name)
            (violations document (cabinet.active name)))), (cabinet, calls)) := by
  have checks : Attempt.eval (answer keeper.perform generator)
      (@Constraints.active .json name) (cabinet, calls)
        = (.ok (cabinet.active name), (cabinet, calls)) := eval_active keeper generator slotted
  -- What is broken is listed with the constraints that ask for it.
  let found (constraint : Constraint) : Option (Constraint × Violation) :=
    (constraint.violation? document).map fun violation => (constraint, violation)
  have broken : Attempt.eval (answer keeper.perform generator)
      (@Constraints.broken .json name document) (cabinet, calls)
        = (.ok ((cabinet.active name).filterMap found), (cabinet, calls)) := by
    have collects : (cabinet.active name).mapM (fun constraint => (.ok (found constraint) :
        Except Failure (Option (Constraint × Violation))))
          = .ok ((cabinet.active name).map found) := List.mapM_pure
    have step := (eval_waitFor keeper.perform generator (@Constraints.active .json name)
      (cabinet, calls)).trans checks
    have collected : Attempt.eval (answer keeper.perform generator)
        (Attempt.ofExcept ((cabinet.active name).mapM fun constraint => .ok (found constraint)) :
          Action (List (Option (Constraint × Violation)))) (cabinet, calls)
          = (.ok ((cabinet.active name).map found), (cabinet, calls)) :=
      congrArg (fun result => (result, (cabinet, calls))) collects
    rw [Constraints.broken, Attempt.eval_bind_ok step]
    refine (Attempt.eval_bind_ok collected).trans ?_
    rw [List.filterMap_map]
    rfl
  have told : ((cabinet.active name).filterMap found).map Prod.snd
      = violations document (cabinet.active name) := by
    rw [List.map_filterMap, violations]
    refine List.filterMap_congr fun constraint _ => ?_
    rw [Option.map_map]
    exact congrFun Option.map_id _
  have step := (eval_waitFor keeper.perform generator (@Constraints.broken .json name document)
    (cabinet, calls)).trans broken
  rw [Constraints.enforce, Attempt.eval_bind_ok step]
  by_cases nothing : violations document (cabinet.active name) = []
  · have empty : ((cabinet.active name).filterMap found).isEmpty = true := by
      rw [List.isEmpty_iff, ← List.map_eq_nil_iff, told, nothing]
    rw [if_pos nothing, if_pos empty]
    rfl
  · have nonempty : ((cabinet.active name).filterMap found).isEmpty ≠ true := by
      rw [Ne, List.isEmpty_iff, ← List.map_eq_nil_iff, told]
      exact nothing
    rw [if_neg nothing, if_neg nonempty, ← told]
    rfl

end

/-! ## Writing documents -/

/-- The identifier and the record that a body becomes, and how often the generator has been called
then. -/
def recordOf (generator : Nat → Identifier.Generated) (calls : Nat)
    (fields : List (String × Json)) : Except Failure (String × Json) × Nat :=
  match givenId? fields with
  | some id => (.ok (id, .object fields), calls)
  | none =>
      ((Identifier.check (generator calls)).map fun id => (id, .object (withId id fields)), calls + 1)

/-- Why a record is refused that breaks constraints in force. -/
def refusal (name : String) (record : Json) (cabinet : Cabinet) : Failure :=
  .ofFault (.violation (.ofString name) (violations record (cabinet.active name)))

section

variable (keeper : Keeper) (generator : Nat → Identifier.Generated)

/-- What comes of keeping a new record. -/
def keep (name id : String) (record : Json) (cabinet : Cabinet) : Except Failure String × Cabinet :=
  if violations record (cabinet.active name) ≠ [] then (.error (refusal name record cabinet), cabinet)
  else if ((cabinet.held name).documents.lookup (keeper.slot id)).isSome then
    (.error (keeper.taken name id), cabinet)
  else (.ok id, cabinet.modify name fun drawer => drawer.putAt (keeper.slot id) record)

/-- What comes of replacing a record. -/
def overwrite (name id : String) (record : Json) (cabinet : Cabinet) :
    Except Failure String × Cabinet :=
  if violations record (cabinet.active name) ≠ [] then (.error (refusal name record cabinet), cabinet)
  else (.ok id, cabinet.modify name fun drawer => drawer.putAt (keeper.slot id) record)

/-- What comes of keeping a body as a new record. -/
def insertion (name : String) (fields : List (String × Json)) (state : Cabinet × Nat) :
    Except Failure String × (Cabinet × Nat) :=
  match recordOf generator state.2 fields with
  | (.error failure, calls) => (.error failure, (state.1, calls))
  | (.ok (id, record), calls) =>
      ((keep keeper name id record state.1).1, ((keep keeper name id record state.1).2, calls))

/-- Whether a collection has a document of an identifier. -/
def isStored (name id : String) (cabinet : Cabinet) : Bool :=
  (((cabinet.held name).documents.lookup (keeper.slot id)).filter fun document =>
    FileStore.documentId? document == some id).isSome

/-- What comes of saving a body. -/
def saving (name : String) (fields : List (String × Json)) (state : Cabinet × Nat) :
    Except Failure String × (Cabinet × Nat) :=
  match givenId? fields with
  | none => insertion keeper generator name fields state
  | some id =>
      if isStored keeper name id state.1 then
        ((overwrite keeper name id (.object fields) state.1).1,
          ((overwrite keeper name id (.object fields) state.1).2, state.2))
      else insertion keeper generator name fields state

variable {cabinet : Cabinet} {calls : Nat} {name : String}

section

variable {keeper generator} {fields : List (String × Json)}
  (holds : Except Failure String × Cabinet → Prop)

/-- What holds where no record comes to be, and of keeping any that does, holds of an insertion. -/
theorem insertion_induction
    (failed : ∀ failure, (recordOf generator calls fields).1 = .error failure →
      holds (.error failure, cabinet))
    (kept : ∀ id record, (recordOf generator calls fields).1 = .ok (id, record) →
      holds (keep keeper name id record cabinet)) :
    holds ((insertion keeper generator name fields (cabinet, calls)).1,
      (insertion keeper generator name fields (cabinet, calls)).2.1) := by
  unfold insertion
  cases isRecord : recordOf generator calls fields with
  | mk result calls' =>
      have isFirst : (recordOf generator calls fields).1 = result := congrArg Prod.fst isRecord
      cases result with
      | error failure => exact failed failure isFirst
      | ok found => exact kept found.1 found.2 isFirst

/-- What holds of an insertion, and of overwriting what is stored, holds of saving. -/
theorem saving_induction
    (inserted : holds ((insertion keeper generator name fields (cabinet, calls)).1,
      (insertion keeper generator name fields (cabinet, calls)).2.1))
    (overwritten : ∀ id, givenId? fields = some id → isStored keeper name id cabinet = true →
      holds (overwrite keeper name id (.object fields) cabinet)) :
    holds ((saving keeper generator name fields (cabinet, calls)).1,
      (saving keeper generator name fields (cabinet, calls)).2.1) := by
  unfold saving
  cases given : givenId? fields with
  | none => exact inserted
  | some id =>
      dsimp only
      split
      next stored => exact overwritten id given stored
      next => exact inserted

end

theorem eval_create :
    Attempt.eval (answer keeper.perform generator) (@Registry.create .json name) (cabinet, calls)
      = (.ok (cabinet.drawer? name).isNone, (cabinet.opened name, calls)) := by
  have step : Attempt.eval (answer keeper.perform generator) (@storeOn .json (.create name))
      (cabinet, calls) = (.ok (cabinet.drawer? name).isNone, (cabinet.opened name, calls)) := by
    rw [eval_storeOn, keeper.create_eq]
  rw [Registry.create, Attempt.eval_bind_ok step]
  cases (cabinet.drawer? name).isNone <;> rfl

section

variable (slotted : cabinet.Slotted keeper.slot) (there : (cabinet.drawer? name).isSome)
include slotted there

theorem eval_keep (id : String) (record : Json) :
    Attempt.eval (answer keeper.perform generator) (do
        waitFor (@Constraints.enforce .json name record)
        store (.put name id record)
        logDocuments "document.insert" name id
        return id : Action String) (cabinet, calls)
      = ((keep keeper name id record cabinet).1, ((keep keeper name id record cabinet).2, calls)) := by
  have enforced := (eval_waitFor keeper.perform generator (@Constraints.enforce .json name record)
    (cabinet, calls)).trans (eval_enforce keeper generator slotted record)
  unfold keep
  by_cases breaks : violations record (cabinet.active name) ≠ []
  · rw [if_neg breaks] at enforced
    rw [if_pos breaks, Attempt.eval_bind_error enforced]
    rfl
  · rw [if_pos (not_not.mp breaks)] at enforced
    rw [if_neg breaks, Attempt.eval_bind_ok enforced]
    by_cases isTaken : ((cabinet.held name).documents.lookup (keeper.slot id)).isSome = true
    · have puts : Attempt.eval (answer keeper.perform generator) (store (.put name id record))
          (cabinet, calls) = (.error (keeper.taken name id), (cabinet, calls)) := by
        rw [store, eval_storeOn, keeper.put_eq there, if_pos isTaken]
      rw [if_pos isTaken, Attempt.eval_bind_error puts]
    · have puts : Attempt.eval (answer keeper.perform generator) (store (.put name id record))
          (cabinet, calls) = (.ok (), (cabinet.modify name fun drawer =>
            drawer.putAt (keeper.slot id) record, calls)) := by
        rw [store, eval_storeOn, keeper.put_eq there, if_neg isTaken]
      rw [if_neg isTaken, Attempt.eval_bind_ok puts]
      rfl

theorem eval_insertLocked (fields : List (String × Json)) :
    Attempt.eval (answer keeper.perform generator) (Documents.insertLocked name fields)
        (cabinet, calls)
      = insertion keeper generator name fields (cabinet, calls) := by
  rw [Documents.insertLocked, insertion, recordOf]
  cases givenId? fields with
  | some id => exact eval_keep keeper generator slotted there id (.object fields)
  | none =>
      have generates := eval_generate keeper.perform generator (cabinet, calls)
      simp only [pure_bind]
      cases checked : Identifier.check (generator calls) with
      | error failure =>
          rw [checked] at generates
          rw [Attempt.eval_bind_error generates]
          rfl
      | ok id =>
          rw [checked] at generates
          rw [Attempt.eval_bind_ok generates]
          exact eval_keep keeper generator slotted there id _

theorem eval_saveLocked (fields : List (String × Json)) :
    Attempt.eval (answer keeper.perform generator) (match givenId? fields with
        | none => waitFor (Documents.insertLocked name fields)
        | some id => do
            match ← store (.get name id) with
            | none => waitFor (Documents.insertLocked name fields)
            | some _ => do
                waitFor (Constraints.enforce name (Tree.object fields))
                let _ ← store (.replace name id (.object fields))
                logDocuments "document.replace" name id
                return id : Action String) (cabinet, calls)
      = saving keeper generator name fields (cabinet, calls) := by
  have inserts := (eval_waitFor keeper.perform generator (Documents.insertLocked name fields)
    (cabinet, calls)).trans (eval_insertLocked keeper generator slotted there fields)
  rw [saving]
  cases givenId? fields with
  | none => exact inserts
  | some id =>
      have gets : Attempt.eval (answer keeper.perform generator) (store (.get name id))
          (cabinet, calls) = (.ok ((((cabinet.held name).documents.lookup (keeper.slot id)).filter
            fun document => FileStore.documentId? document == some id).map keeper.shown),
              (cabinet, calls)) := by
        rw [store, eval_storeOn, keeper.get_eq slotted]
      dsimp only
      rw [Attempt.eval_bind_ok gets, isStored]
      cases found : ((cabinet.held name).documents.lookup (keeper.slot id)).filter fun document =>
          FileStore.documentId? document == some id with
      | none => exact inserts
      | some document =>
          have enforced := (eval_waitFor keeper.perform generator
            (@Constraints.enforce .json name (.object fields)) (cabinet, calls)).trans
              (eval_enforce keeper generator slotted (.object fields))
          have occupied : ((cabinet.held name).documents.lookup (keeper.slot id)).isSome = true := by
            rw [(Option.filter_eq_some_iff.mp found).1]
            rfl
          have replaces : Attempt.eval (answer keeper.perform generator)
              (store (.replace name id (.object fields))) (cabinet, calls)
                = (.ok true, (cabinet.modify name fun drawer =>
                  drawer.putAt (keeper.slot id) (.object fields), calls)) := by
            rw [store, eval_storeOn, keeper.replace_eq, if_pos occupied]
          dsimp only [Option.map_some, Option.isSome_some]
          rw [if_pos rfl, overwrite]
          by_cases breaks : violations (.object fields) (cabinet.active name) ≠ []
          · rw [if_neg breaks] at enforced
            rw [if_pos breaks, Attempt.eval_bind_error enforced]
            rfl
          · rw [if_pos (not_not.mp breaks)] at enforced
            rw [if_neg breaks, Attempt.eval_bind_ok enforced, Attempt.eval_bind_ok replaces]
            rfl

end

section

variable (slotted : cabinet.Slotted keeper.slot) (named : Named name) (document : Caller.Value)
include slotted named

/-- An insertion settles the body, opens the collection and keeps a new record. -/
theorem eval_insert :
    Attempt.eval (answer keeper.perform generator) (Documents.insert name document) (cabinet, calls)
      = settle (body document) (cabinet, calls) fun fields =>
          insertion keeper generator name fields (cabinet.opened name, calls) := by
  refine eval_settle _ (body document) _ _ fun fields _ => ?_
  have creates := (eval_waitFor keeper.perform generator (@Registry.create .json name)
    (cabinet, calls)).trans (eval_create keeper generator)
  refine (eval_holding keeper.perform generator name _ (cabinet, calls)).trans ?_
  rw [Attempt.eval_bind_ok creates, eval_waitFor]
  exact eval_insertLocked keeper generator (slotted.opened named) Cabinet.there_opened fields

/-- Saving settles the body, opens the collection and replaces a record or keeps a new one. -/
theorem eval_save :
    Attempt.eval (answer keeper.perform generator) (Documents.save name document) (cabinet, calls)
      = settle (body document) (cabinet, calls) fun fields =>
          saving keeper generator name fields (cabinet.opened name, calls) := by
  refine eval_settle _ (body document) _ _ fun fields _ => ?_
  have creates := (eval_waitFor keeper.perform generator (@Registry.create .json name)
    (cabinet, calls)).trans (eval_create keeper generator)
  refine (eval_holding keeper.perform generator name _ (cabinet, calls)).trans ?_
  rw [Attempt.eval_bind_ok creates]
  exact eval_saveLocked keeper generator (slotted.opened named) Cabinet.there_opened fields

end

end

/-! ## Reading and removing documents -/

section

variable (keeper : Keeper) (generator : Nat → Identifier.Generated)

/-- The documents of a collection as they are given back. -/
def listing (name : String) (cabinet : Cabinet) : List Json :=
  (keeper.order (cabinet.held name)).map fun entry => keeper.shown entry.2

/-- The document of an identifier as it is given back. -/
def found? (name id : String) (cabinet : Cabinet) : Option Json :=
  (((cabinet.held name).documents.lookup (keeper.slot id)).filter fun document =>
    FileStore.documentId? document == some id).map keeper.shown

/-- The entries that a removal removes. -/
def gone (name : String) (query : Json) (limit : Storage.Limit) (cabinet : Cabinet) :
    List (String × Json) :=
  limit.start 0 ((keeper.order (cabinet.held name)).filter fun entry => Json.contains entry.2 query)

variable {cabinet : Cabinet} {calls : Nat} {name : String}

/-- A collection that does not exist has no documents. -/
theorem order_of_missing (missing : cabinet.drawer? name = none) :
    keeper.order (cabinet.held name) = [] := by
  rw [Cabinet.held_of_missing missing]
  exact (keeper.order_perm ⟨[], []⟩).eq_nil

theorem eval_exists :
    Attempt.eval (answer keeper.perform generator) (store (.exists name)) (cabinet, calls)
      = (.ok (cabinet.drawer? name).isSome, (cabinet, calls)) := by
  rw [store, eval_storeOn, keeper.exists_eq]

theorem eval_drop :
    Attempt.eval (answer keeper.perform generator) (@Registry.drop .json name) (cabinet, calls)
      = (.ok (cabinet.drawer? name).isSome, (cabinet.withoutDrawer name, calls)) := by
  have step : Attempt.eval (answer keeper.perform generator) (@storeOn .json (.drop name))
      (cabinet, calls) = (.ok (cabinet.drawer? name).isSome, (cabinet.withoutDrawer name, calls)) := by
    rw [eval_storeOn, keeper.drop_eq]
  rw [Registry.drop, Attempt.eval_bind_ok step]
  cases (cabinet.drawer? name).isSome <;> rfl

theorem eval_scan (query : Json) :
    Attempt.eval (answer keeper.perform generator) (Documents.scan name query) (cabinet, calls)
      = (.ok ((listing keeper name cabinet).filter fun document => Json.contains document query),
          (cabinet, calls)) := by
  rw [Documents.scan, Attempt.eval_bind_ok (eval_exists keeper generator), listing]
  cases there : cabinet.drawer? name with
  | none =>
      rw [order_of_missing keeper there]
      rfl
  | some drawer =>
      rw [Option.isSome_some, if_pos rfl, store, eval_storeOn, keeper.scan_eq]

theorem eval_findById (slotted : cabinet.Slotted keeper.slot) (id : String) :
    Attempt.eval (answer keeper.perform generator) (Documents.findById name id) (cabinet, calls)
      = (.ok (found? keeper name id cabinet), (cabinet, calls)) := by
  rw [Documents.findById, Attempt.eval_bind_ok (eval_exists keeper generator), found?]
  cases there : cabinet.drawer? name with
  | none =>
      rw [Cabinet.held_of_missing there]
      rfl
  | some drawer =>
      rw [Option.isSome_some, if_pos rfl, store, eval_storeOn, keeper.get_eq slotted]

theorem eval_remove (slotted : cabinet.Slotted keeper.slot) (query : Json) {limit : Storage.Limit}
    (comparable : limit ≠ .incomparable) :
    Attempt.eval (answer keeper.perform generator) (Documents.remove name query limit)
        (cabinet, calls)
      = (.ok (gone keeper name query limit cabinet).length, (cabinet.modify name fun drawer =>
          drawer.withoutFiles ((gone keeper name query limit cabinet).map Prod.fst), calls)) := by
  refine (eval_holding keeper.perform generator name _ (cabinet, calls)).trans ?_
  rw [Attempt.eval_bind_ok (eval_exists keeper generator)]
  cases there : cabinet.drawer? name with
  | none =>
      have nothing : gone keeper name query limit cabinet = [] := by
        rw [gone, order_of_missing keeper there, List.filter_nil]
        exact List.eq_nil_of_subset_nil (Keeper.start_subset limit 0 [])
      rw [Keeper.modify_of_missing there, nothing]
      rfl
  | some drawer =>
      have deletes : Attempt.eval (answer keeper.perform generator)
          (store (.deleteMatching name query limit)) (cabinet, calls)
            = (.ok ((gone keeper name query limit cabinet).map fun entry => keeper.shown entry.2),
              (cabinet.modify name fun drawer => drawer.withoutFiles
                ((gone keeper name query limit cabinet).map Prod.fst), calls)) := by
        rw [store, eval_storeOn, keeper.deleteMatching_eq slotted name query comparable]
        rfl
      have size : ((gone keeper name query limit cabinet).map fun entry =>
          keeper.shown entry.2).length = (gone keeper name query limit cabinet).length :=
        List.length_map _
      rw [Option.isSome_some, if_pos rfl, Attempt.eval_bind_ok deletes, ← size]
      split <;> rfl

theorem eval_removeById (id : String) :
    Attempt.eval (answer keeper.perform generator) (Documents.removeById name id) (cabinet, calls)
      = (.ok (if ((cabinet.held name).documents.lookup (keeper.slot id)).isSome then 1 else 0),
          (cabinet.modify name fun drawer => drawer.withoutFiles [keeper.slot id], calls)) := by
  refine (eval_holding keeper.perform generator name _ (cabinet, calls)).trans ?_
  rw [Attempt.eval_bind_ok (eval_exists keeper generator)]
  cases there : cabinet.drawer? name with
  | none =>
      rw [Keeper.modify_of_missing there, Cabinet.held_of_missing there]
      rfl
  | some drawer =>
      have deletes : Attempt.eval (answer keeper.perform generator)
          (store (.deleteById name id)) (cabinet, calls)
            = (.ok ((cabinet.held name).documents.lookup (keeper.slot id)).isSome,
              (cabinet.modify name fun drawer => drawer.withoutFiles [keeper.slot id], calls)) := by
        rw [store, eval_storeOn, keeper.deleteById_eq]
      rw [Option.isSome_some, if_pos rfl, Attempt.eval_bind_ok deletes]
      cases ((cabinet.held name).documents.lookup (keeper.slot id)).isSome <;> rfl

end

/-! ## Changing constraints -/

/-- Steps that change a cabinet one after another, and what each of them tells. -/
def inTurn (step : Constraint → Cabinet → Bool × Cabinet) :
    List Constraint → Cabinet → List Bool × Cabinet
  | [], cabinet => ([], cabinet)
  | constraint :: rest, cabinet =>
      let (first, cabinet) := step constraint cabinet
      let (others, cabinet) := inTurn step rest cabinet
      (first :: others, cabinet)

section

variable (keeper : Keeper) (generator : Nat → Identifier.Generated)

/-- What comes of adding one constraint. -/
def addCheck (name : String) (constraint : Constraint) (cabinet : Cabinet) : Bool × Cabinet :=
  if ((cabinet.held name).checks.lookup (keeper.slot constraint.name)).isSome then (false, cabinet)
  else (true, cabinet.modify name fun drawer =>
    drawer.putCheckAt (keeper.slot constraint.name) constraint)

/-- What comes of removing one constraint. -/
def dropCheck (name : String) (constraint : Constraint) (cabinet : Cabinet) : Bool × Cabinet :=
  (((cabinet.held name).checks.lookup (keeper.slot constraint.name)).isSome,
    cabinet.modify name fun drawer => drawer.withoutCheck (keeper.slot constraint.name))

/-- What comes of adding the constraints of a specification. -/
def addition (name : String) (spec : Caller.Value) (cabinet : Cabinet) :
    Except Failure Bool × Cabinet :=
  match Constraints.requested true spec with
  | .error failure => (.error failure, cabinet)
  | .ok [] => (.ok false, cabinet)
  | .ok (first :: rest) =>
      match (first :: rest).findSome?
          (@Constraints.conflict? .json (cabinet.active name)) with
      | some failure => (.error failure, cabinet)
      | none =>
          let added := inTurn (addCheck keeper name) (first :: rest) (cabinet.opened name)
          (.ok (added.1.any id), added.2)

/-- What comes of removing the constraints of a specification. -/
def subtraction (name : String) (spec : Caller.Value) (cabinet : Cabinet) :
    Except Failure Bool × Cabinet :=
  match Constraints.requested false spec with
  | .error failure => (.error failure, cabinet)
  | .ok constraints =>
      let removed := inTurn (dropCheck keeper name) constraints cabinet
      (.ok (removed.1.any id), removed.2)

variable {calls : Nat} {name : String}

/-- What is done for each constraint is done in turn. -/
theorem eval_inTurn (action : Constraint → Action Bool)
    (step : Constraint → Cabinet → Bool × Cabinet) (holds : Cabinet → Prop)
    (each : ∀ constraint cabinet, holds cabinet →
      Attempt.eval (answer keeper.perform generator) (action constraint) (cabinet, calls)
          = (.ok (step constraint cabinet).1, ((step constraint cabinet).2, calls))
        ∧ holds (step constraint cabinet).2)
    (constraints : List Constraint) {cabinet : Cabinet} (start : holds cabinet) :
    Attempt.eval (answer keeper.perform generator) (Attempt.forEach constraints action)
        (cabinet, calls)
      = (.ok (inTurn step constraints cabinet).1, ((inTurn step constraints cabinet).2, calls)) := by
  induction constraints generalizing cabinet with
  | nil => rfl
  | cons head rest ih =>
      obtain ⟨first, goesOn⟩ := each head cabinet start
      rw [Attempt.eval_forEach_cons, Attempt.eval_bind_ok first, Attempt.eval_bind_ok (ih goesOn)]
      rfl

theorem eval_addOne (constraint : Constraint) (cabinet : Cabinet)
    (there : (cabinet.drawer? name).isSome) :
    Attempt.eval (answer keeper.perform generator) (@Constraints.addOne .json name constraint)
          (cabinet, calls)
        = (.ok (addCheck keeper name constraint cabinet).1,
            ((addCheck keeper name constraint cabinet).2, calls))
      ∧ ((addCheck keeper name constraint cabinet).2.drawer? name).isSome := by
  have adds := keeper.addCheck_eq there constraint.name constraint
  have step : Attempt.eval (answer keeper.perform generator)
      (@storeOn .json (.addCheck name constraint.name constraint)) (cabinet, calls)
        = (.ok (addCheck keeper name constraint cabinet).1,
            ((addCheck keeper name constraint cabinet).2, calls)) := by
    rw [eval_storeOn, adds, addCheck]
    split <;> rfl
  refine ⟨?_, ?_⟩
  · refine (Attempt.eval_bind_ok step).trans ?_
    cases (addCheck keeper name constraint cabinet).1 <;> rfl
  · rw [addCheck]
    split
    · exact there
    · rw [Cabinet.drawer?_modify, if_pos rfl, Option.isSome_map]
      exact there

theorem eval_add {cabinet : Cabinet} (slotted : cabinet.Slotted keeper.slot) (spec : Caller.Value) :
    Attempt.eval (answer keeper.perform generator) (@Constraints.add .json name spec)
        (cabinet, calls)
      = ((addition keeper name spec cabinet).1, ((addition keeper name spec cabinet).2, calls)) := by
  rw [Constraints.add, addition]
  match Constraints.requested true spec with
  | .error failure => exact eval_resultOf keeper.perform generator _ _
  | .ok [] => exact eval_resultOf keeper.perform generator _ _
  | .ok (first :: rest) =>
      have lists := (eval_waitFor keeper.perform generator (@Constraints.active .json name)
        (cabinet, calls)).trans (eval_active keeper generator slotted)
      dsimp only
      rw [Attempt.eval_bind_ok lists]
      cases (first :: rest).findSome? (@Constraints.conflict? .json (cabinet.active name)) with
      | some failure => rfl
      | none =>
          have creates : Attempt.eval (answer keeper.perform generator)
              (@storeOn .json (.create name)) (cabinet, calls)
                = (.ok (cabinet.drawer? name).isNone, (cabinet.opened name, calls)) := by
            rw [eval_storeOn, keeper.create_eq]
          have adds : Attempt.eval (answer keeper.perform generator)
              (Attempt.forEach (first :: rest) (@Constraints.addOne .json name))
              (cabinet.opened name, calls) = _ :=
            eval_inTurn keeper generator _ (addCheck keeper name) _
              (eval_addOne keeper generator) (first :: rest) Cabinet.there_opened
          dsimp only
          rw [Attempt.eval_bind_ok creates, Attempt.eval_bind_ok adds]
          rfl

theorem eval_removeOne (constraint : Constraint) (cabinet : Cabinet) :
    Attempt.eval (answer keeper.perform generator) (@Constraints.removeOne .json name constraint)
        (cabinet, calls)
      = (.ok (dropCheck keeper name constraint cabinet).1,
          ((dropCheck keeper name constraint cabinet).2, calls)) := by
  have step : Attempt.eval (answer keeper.perform generator)
      (@storeOn .json (.dropCheck name constraint.name)) (cabinet, calls)
        = (.ok (dropCheck keeper name constraint cabinet).1,
            ((dropCheck keeper name constraint cabinet).2, calls)) := by
    rw [eval_storeOn, keeper.dropCheck_eq, dropCheck]
  refine (Attempt.eval_bind_ok step).trans ?_
  cases (dropCheck keeper name constraint cabinet).1 <;> rfl

theorem eval_subtract (spec : Caller.Value) (cabinet : Cabinet) :
    Attempt.eval (answer keeper.perform generator) (@Constraints.remove .json name spec)
        (cabinet, calls)
      = ((subtraction keeper name spec cabinet).1,
          ((subtraction keeper name spec cabinet).2, calls)) := by
  rw [Constraints.remove, subtraction]
  match Constraints.requested false spec with
  | .error failure => exact eval_resultOf keeper.perform generator _ _
  | .ok [] => exact eval_resultOf keeper.perform generator _ _
  | .ok (first :: rest) =>
      have removes : Attempt.eval (answer keeper.perform generator)
          (Attempt.forEach (first :: rest) (@Constraints.removeOne .json name)) (cabinet, calls) = _ :=
        eval_inTurn keeper generator _ (dropCheck keeper name) (fun _ => True)
          (fun constraint cabinet _ =>
            ⟨eval_removeOne keeper generator constraint cabinet, trivial⟩) (first :: rest) trivial
      dsimp only
      rw [Attempt.eval_bind_ok removes]
      rfl

end

/-! ## Operations -/

section

variable (keeper : Keeper) (generator : Nat → Identifier.Generated)

/-- What comes of removing documents that contain a query. -/
def removal (name : String) (query : Json) (limit : Storage.Limit) (state : Cabinet × Nat) :
    Except Failure Nat × (Cabinet × Nat) :=
  let entries := gone keeper name query limit state.1
  (.ok entries.length,
    (state.1.modify name fun drawer => drawer.withoutFiles (entries.map Prod.fst), state.2))

/-- What comes of an operation. -/
def outcome : (operation : Operation) → Cabinet × Nat →
    Except Failure operation.Result × (Cabinet × Nat)
  | .listCollections, state =>
      (.ok (Sorting.sort Text.before (state.1.collections.map Prod.fst)), state)
  | .collectionExists collection, state =>
      settle (checkedName collection) state fun name => (.ok (state.1.drawer? name).isSome, state)
  | .createCollection collection, state =>
      settle (checkedName collection) state fun name =>
        (.ok (state.1.drawer? name).isNone, (state.1.opened name, state.2))
  | .dropCollection collection, state =>
      settle (checkedName collection) state fun name =>
        (.ok (state.1.drawer? name).isSome, (state.1.withoutDrawer name, state.2))
  | .insert collection document, state =>
      settle (checkedName collection) state fun name =>
        settle (body document) state fun fields =>
          insertion keeper generator name fields (state.1.opened name, state.2)
  | .save collection document, state =>
      settle (checkedName collection) state fun name =>
        settle (body document) state fun fields =>
          saving keeper generator name fields (state.1.opened name, state.2)
  | .find collection query, state =>
      settle (cursorOf collection query) state fun cursor =>
        (.ok ((listing keeper cursor.collection state.1).filter fun document =>
          Json.contains document cursor.query), state)
  | .findOne collection query, state =>
      settle (cursorOf collection query) state fun cursor =>
        (.ok ((listing keeper cursor.collection state.1).filter fun document =>
          Json.contains document cursor.query).head?, state)
  | .count collection query, state =>
      settle (cursorOf collection query) state fun cursor =>
        (.ok ((listing keeper cursor.collection state.1).filter fun document =>
          Json.contains document cursor.query).length, state)
  | .findOneById collection id, state =>
      settle (checkedName collection) state fun name =>
        settle (Identifier.ofValue id) state fun id => (.ok (found? keeper name id state.1), state)
  | .remove collection query, state =>
      settle (checkedName collection) state fun name =>
        settle (checkedQuery query) state fun query => removal keeper name query .none state
  | .removeOne collection query, state =>
      settle (checkedName collection) state fun name =>
        settle (checkedQuery query) state fun query => removal keeper name query (.upTo 1) state
  | .removeOneById collection id, state =>
      settle (checkedName collection) state fun name =>
        settle (Identifier.ofValue id) state fun id =>
          (.ok (if ((state.1.held name).documents.lookup (keeper.slot id)).isSome then 1 else 0),
            (state.1.modify name fun drawer => drawer.withoutFiles [keeper.slot id], state.2))
  | .addConstraint collection spec, state =>
      settle (checkedName collection) state fun name =>
        ((addition keeper name spec state.1).1, ((addition keeper name spec state.1).2, state.2))
  | .removeConstraint collection spec, state =>
      settle (checkedName collection) state fun name =>
        ((subtraction keeper name spec state.1).1,
          ((subtraction keeper name spec state.1).2, state.2))
  | .listConstraints collection, state =>
      settle (checkedName collection) state fun name => (.ok (state.1.active name), state)

/-- **Every operation comes to what its outcome says.** -/
theorem eval_perform {state : Cabinet × Nat} (slotted : state.1.Slotted keeper.slot)
    (operation : Operation) :
    Attempt.eval (answer keeper.perform generator) (perform operation) state
      = outcome keeper generator operation state := by
  obtain ⟨cabinet, calls⟩ := state
  have holding {α : Type} (name : String) (body : Action α) :=
    eval_holding keeper.perform generator name body (cabinet, calls)
  cases operation with
  | listCollections =>
      refine (eval_storeOn keeper.perform generator .collections (cabinet, calls)).trans ?_
      rw [keeper.collections_eq]
      rfl
  | collectionExists collection =>
      exact eval_settle _ _ _ _ fun name _ => eval_exists keeper generator
  | createCollection collection =>
      exact eval_settle _ _ _ _ fun name _ => (holding name _).trans (eval_create keeper generator)
  | dropCollection collection =>
      exact eval_settle _ _ _ _ fun name _ => (holding name _).trans (eval_drop keeper generator)
  | insert collection document =>
      exact eval_settle _ _ _ _ fun name isName =>
        eval_insert keeper generator slotted (named_of_checkedName isName) document
  | save collection document =>
      exact eval_settle _ _ _ _ fun name isName =>
        eval_save keeper generator slotted (named_of_checkedName isName) document
  | find collection query =>
      rw [perform, cursor_eq]
      exact eval_settle _ _ _ _ fun found _ => eval_scan keeper generator found.query
  | findOne collection query =>
      rw [perform, cursor_eq]
      exact eval_settle _ _ _ _ fun found _ =>
        Attempt.eval_bind_ok (eval_scan keeper generator found.query)
  | count collection query =>
      rw [perform, cursor_eq]
      exact eval_settle _ _ _ _ fun found _ =>
        Attempt.eval_bind_ok (eval_scan keeper generator found.query)
  | findOneById collection id =>
      exact eval_settle _ _ _ _ fun name _ => eval_settle _ _ _ _ fun id _ =>
        eval_findById keeper generator slotted id
  | remove collection query =>
      exact eval_settle _ _ _ _ fun name _ => eval_settle _ _ _ _ fun query _ =>
        eval_remove keeper generator slotted query (by simp)
  | removeOne collection query =>
      exact eval_settle _ _ _ _ fun name _ => eval_settle _ _ _ _ fun query _ =>
        eval_remove keeper generator slotted query (by simp)
  | removeOneById collection id =>
      exact eval_settle _ _ _ _ fun name _ => eval_settle _ _ _ _ fun id _ =>
        eval_removeById keeper generator id
  | addConstraint collection spec =>
      exact eval_settle _ _ _ _ fun name _ =>
        (holding name _).trans (eval_add keeper generator slotted spec)
  | removeConstraint collection spec =>
      exact eval_settle _ _ _ _ fun name _ =>
        (holding name _).trans (eval_subtract keeper generator spec cabinet)
  | listConstraints collection =>
      exact eval_settle _ _ _ _ fun name _ => eval_active keeper generator slotted

end

end DocStore.Database
