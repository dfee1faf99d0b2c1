import DocStore.Proofs.Database.Outcomes
import DocStore.Proofs.Database.Tree
/-!
# Histories

The states that the outcomes of operations tell one after another (`reached`), over either storage.
In all of them each document and each constraint is in its slot (`slotted_reached`), and the calls
of the generator never fall (`calls_le_reached`).
-/

set_option autoImplicit false

namespace DocStore.Database

open Files (Named)
open Host (Machine)

/-! ## Slots -/

section

variable {generator : Nat → Identifier.Generated} {calls : Nat} {fields : List (String × Json)}

/-- The record that a body becomes is a JSON object with the identifier that is told. -/
theorem of_recordOf (wellFormed : Json.WellFormed (.object fields))
    (noId : givenId? fields = none → idField ∉ fields.map Prod.fst) {id : String} {record : Json}
    (isRecord : (recordOf generator calls fields).1 = .ok (id, record)) :
    record.WellFormed ∧ FileStore.documentId? record = some id := by
  unfold recordOf at isRecord
  cases given : givenId? fields with
  | some given' =>
      rw [given] at isRecord
      cases isRecord
      exact ⟨wellFormed, documentId?_object given⟩
  | none =>
      rw [given] at isRecord
      dsimp only at isRecord
      cases checked : Identifier.check (generator calls) with
      | error failure =>
          rw [checked] at isRecord
          cases isRecord
      | ok generated =>
          rw [checked] at isRecord
          cases isRecord
          have absent := noId given
          exact ⟨wellFormed_withId _ wellFormed absent,
            documentId?_withId _ (Json.wellFormed_object.mp wellFormed).1 absent⟩

end

/-- A write of a document is refused and changes nothing, or it puts a record that breaks nothing
into the slot of its identifier. -/
inductive Stores (keeper : Keeper) (name : String) (cabinet : Cabinet) :
    Except Failure String × Cabinet → Prop
  | refused (failure : Failure) : Stores keeper name cabinet (.error failure, cabinet)
  | stored {id : String} {record : Json} (wellFormed : record.WellFormed)
      (isId : FileStore.documentId? record = some id)
      (allowed : violations record (cabinet.active name) = []) :
      Stores keeper name cabinet
        (.ok id, cabinet.modify name fun drawer => drawer.putAt (keeper.slot id) record)

section

variable {keeper : Keeper} {generator : Nat → Identifier.Generated} {cabinet : Cabinet}
  {name : String}

section

variable {id : String} {record : Json} (wellFormed : record.WellFormed)
  (isId : FileStore.documentId? record = some id)
include wellFormed isId

theorem stores_keep : Stores keeper name cabinet (keep keeper name id record cabinet) := by
  unfold keep
  split
  · exact .refused _
  next allowed =>
    split
    · exact .refused _
    · exact .stored wellFormed isId (not_not.mp allowed)

theorem stores_overwrite : Stores keeper name cabinet (overwrite keeper name id record cabinet) := by
  unfold overwrite
  split
  · exact .refused _
  next allowed => exact .stored wellFormed isId (not_not.mp allowed)

end

section

variable {fields : List (String × Json)} {calls : Nat}
  (wellFormed : Json.WellFormed (.object fields))
  (noId : givenId? fields = none → idField ∉ fields.map Prod.fst)
include wellFormed noId

theorem stores_insertion :
    Stores keeper name cabinet ((insertion keeper generator name fields (cabinet, calls)).1,
      (insertion keeper generator name fields (cabinet, calls)).2.1) := by
  refine insertion_induction (Stores keeper name cabinet) (fun failure _ => .refused failure)
    fun id record isRecord => ?_
  obtain ⟨isJson, isId⟩ := of_recordOf wellFormed noId isRecord
  exact stores_keep isJson isId

theorem stores_saving :
    Stores keeper name cabinet ((saving keeper generator name fields (cabinet, calls)).1,
      (saving keeper generator name fields (cabinet, calls)).2.1) :=
  saving_induction (Stores keeper name cabinet) (stores_insertion wellFormed noId)
    fun _ given _ => stores_overwrite wellFormed (documentId?_object given)

end

variable (slotted : cabinet.Slotted keeper.slot)
include slotted

theorem Stores.keeps_slots {written : Except Failure String × Cabinet}
    (stores : Stores keeper name cabinet written) : written.2.Slotted keeper.slot := by
  cases stores with
  | refused => exact slotted
  | stored wellFormed isId _ => exact slotted.modify fun _ inSlots => inSlots.putAt wellFormed isId

theorem slotted_addCheck (name : String) (constraint : Constraint) :
    (addCheck keeper name constraint cabinet).2.Slotted keeper.slot := by
  unfold addCheck
  split
  · exact slotted
  · exact slotted.modify fun _ inSlots => inSlots.putCheckAt constraint

theorem slotted_dropCheck (name : String) (constraint : Constraint) :
    (dropCheck keeper name constraint cabinet).2.Slotted keeper.slot :=
  slotted.modify fun _ inSlots => inSlots.withoutCheck _

end

/-- What each step keeps is kept by all of them in turn. -/
theorem inTurn_induction {step : Constraint → Cabinet → Bool × Cabinet} (holds : Cabinet → Prop)
    (each : ∀ constraint cabinet, holds cabinet → holds (step constraint cabinet).2)
    (constraints : List Constraint) {cabinet : Cabinet} (start : holds cabinet) :
    holds (inTurn step constraints cabinet).2 := by
  induction constraints generalizing cabinet with
  | nil => exact start
  | cons head rest ih => exact ih (each head cabinet start)

theorem settle_induction {α β σ : Type} (holds : σ → Prop) {result : Except Failure β} {state : σ}
    {next : β → Except Failure α × σ} (start : holds state)
    (goesOn : ∀ value, result = .ok value → holds (next value).2) :
    holds (settle result state next).2 := by
  cases result with
  | error failure => exact start
  | ok value => exact goesOn value rfl

section

variable {keeper : Keeper} {generator : Nat → Identifier.Generated} {state : Cabinet × Nat}

/-- **No operation takes anything out of its slot.** -/
theorem slotted_outcome (slotted : state.1.Slotted keeper.slot) {operation : Operation}
    (distinct : operation.Distinct) :
    (outcome keeper generator operation state).2.1.Slotted keeper.slot := by
  have settles {α β : Type} {result : Except Failure β}
      {next : β → Except Failure α × (Cabinet × Nat)}
      (goesOn : ∀ value, result = .ok value → (next value).2.1.Slotted keeper.slot) :
      (settle result state next).2.1.Slotted keeper.slot :=
    settle_induction (fun state : Cabinet × Nat => state.1.Slotted keeper.slot) slotted goesOn
  have removes (name : String) (query : Json) (limit : Storage.Limit) :
      (removal keeper name query limit state).2.1.Slotted keeper.slot :=
    slotted.modify fun _ inSlots => inSlots.withoutFiles _
  cases operation with
  | listCollections => exact slotted
  | collectionExists | listConstraints | find | findOne | count =>
      exact settles fun _ _ => slotted
  | findOneById collection id => exact settles fun _ _ => settles fun _ _ => slotted
  | createCollection collection =>
      exact settles fun name isName => slotted.opened (named_of_checkedName isName)
  | dropCollection collection => exact settles fun name _ => slotted.withoutDrawer name
  | insert collection document =>
      refine settles fun name isName => settles fun fields isBody => ?_
      obtain ⟨wellFormed, noId⟩ := of_body distinct isBody
      exact (stores_insertion wellFormed noId).keeps_slots
        (slotted.opened (named_of_checkedName isName))
  | save collection document =>
      refine settles fun name isName => settles fun fields isBody => ?_
      obtain ⟨wellFormed, noId⟩ := of_body distinct isBody
      exact (stores_saving wellFormed noId).keeps_slots (slotted.opened (named_of_checkedName isName))
  | remove collection query =>
      exact settles fun name _ => settles fun query _ => removes name query .none
  | removeOne collection query =>
      exact settles fun name _ => settles fun query _ => removes name query (.upTo 1)
  | removeOneById collection id =>
      exact settles fun name _ => settles fun id _ =>
        slotted.modify fun _ inSlots => inSlots.withoutFiles _
  | addConstraint collection spec =>
      refine settles fun name isName => ?_
      have opened := slotted.opened (named_of_checkedName isName)
      have adds (constraints : List Constraint) :=
        inTurn_induction (Cabinet.Slotted keeper.slot)
          (fun constraint _ inSlots => slotted_addCheck inSlots name constraint) constraints opened
      show (addition keeper name spec state.1).2.Slotted keeper.slot
      unfold addition
      split
      · exact slotted
      · exact slotted
      · split
        · exact slotted
        · exact adds _
  | removeConstraint collection spec =>
      refine settles fun name _ => ?_
      show (subtraction keeper name spec state.1).2.Slotted keeper.slot
      unfold subtraction
      split
      · exact slotted
      · exact inTurn_induction (Cabinet.Slotted keeper.slot)
          (fun constraint _ inSlots => slotted_dropCheck inSlots name constraint) _ slotted

end

/-! ## Calls of the generator -/

section

variable {keeper : Keeper} {generator : Nat → Identifier.Generated} {name : String}
  {fields : List (String × Json)}

/-- Only the generation of an identifier counts as a call. -/
theorem calls_insertion (state : Cabinet × Nat) :
    (insertion keeper generator name fields state).2.2 = (recordOf generator state.2 fields).2 := by
  rw [insertion]
  split <;> (next isRecord => rw [isRecord])

theorem calls_saving (state : Cabinet × Nat) :
    (saving keeper generator name fields state).2.2 = (recordOf generator state.2 fields).2 := by
  rw [saving]
  cases given : givenId? fields with
  | none => exact calls_insertion state
  | some id =>
      dsimp only
      split
      · rw [recordOf, given]
      · exact calls_insertion state

/-- The number of calls never falls. -/
theorem calls_le_outcome (operation : Operation) (state : Cabinet × Nat) :
    state.2 ≤ (outcome keeper generator operation state).2.2 := by
  have settles {α β : Type} {result : Except Failure β}
      {next : β → Except Failure α × (Cabinet × Nat)}
      (goesOn : ∀ value, result = .ok value → state.2 ≤ (next value).2.2) :
      state.2 ≤ (settle result state next).2.2 :=
    settle_induction (fun later : Cabinet × Nat => state.2 ≤ later.2) (Nat.le_refl _) goesOn
  have records (fields : List (String × Json)) :
      state.2 ≤ (recordOf generator state.2 fields).2 := by
    rw [recordOf]
    split
    · exact Nat.le_refl _
    · exact Nat.le_succ _
  cases operation with
  | listCollections => exact Nat.le_refl _
  | insert collection document =>
      refine settles fun name _ => settles fun fields _ => ?_
      rw [calls_insertion]
      exact records fields
  | save collection document =>
      refine settles fun name _ => settles fun fields _ => ?_
      rw [calls_saving]
      exact records fields
  | collectionExists | createCollection | dropCollection | find | findOne | count | addConstraint
  | removeConstraint | listConstraints => exact settles fun _ _ => Nat.le_refl _
  | findOneById | remove | removeOne | removeOneById =>
      exact settles fun _ _ => settles fun _ _ => Nat.le_refl _

end

/-! ## Runs -/

/-- The state that operations lead to, whatever came of each. -/
def reached (keeper : Keeper) (generator : Nat → Identifier.Generated) (start : Cabinet × Nat)
    (operations : List Operation) : Cabinet × Nat :=
  operations.foldl (fun state operation => (outcome keeper generator operation state).2) start

section

variable {keeper : Keeper} {generator : Nat → Identifier.Generated} {start : Cabinet × Nat}

theorem reached_concat (operations : List Operation) (operation : Operation) :
    reached keeper generator start (operations ++ [operation])
      = (outcome keeper generator operation (reached keeper generator start operations)).2 := by
  rw [reached, List.foldl_append]
  rfl

theorem calls_le_reached (before rest : List Operation) :
    (reached keeper generator start before).2
      ≤ (reached keeper generator start (before ++ rest)).2 := by
  induction rest using List.reverseRecOn with
  | nil => rw [List.append_nil]
  | append_singleton rest operation ih =>
      rw [← List.append_assoc, reached_concat]
      exact ih.trans (calls_le_outcome operation _)

theorem slotted_reached (slotted : start.1.Slotted keeper.slot) {operations : List Operation}
    (distinct : ∀ operation ∈ operations, operation.Distinct) :
    (reached keeper generator start operations).1.Slotted keeper.slot := by
  induction operations using List.reverseRecOn with
  | nil => exact slotted
  | append_singleton before operation ih =>
      rw [reached_concat]
      exact slotted_outcome (ih fun other member => distinct other (List.mem_append_left _ member))
        (distinct operation (by simp))

end

namespace Session

theorem after_concat (session : Session) (machine : Machine) (operations : List Operation)
    (operation : Operation) :
    session.after machine (operations ++ [operation])
      = ((session.after machine operations).attempt (session.perform operation)).2 := by
  rw [after, List.foldl_append]
  rfl

/-- A database that starts without collections, over one of the storages. -/
inductive Fresh (session : Session) (machine : Machine) : Keeper → Prop where
  | memory (backend : session.backend = .memory)
      (empty : machine.memories .json session.number = .empty) : Fresh session machine .memory
  | files {store : FileStore} {home : Disk.Place} (opened : session.Opened store home machine) :
      Fresh session machine (.files store)

end Session

/-! ## A database in memory -/

/-- A database in memory. -/
def memorySession : Session := .start 0 .memory newStore.logger

theorem fresh_memorySession : memorySession.Fresh newMachine .memory := .memory rfl rfl

end DocStore.Database
