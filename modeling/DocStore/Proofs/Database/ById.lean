import DocStore.Proofs.Database.Selection
import DocStore.Proofs.Database.Writes
/-!
# Documents by their identifier

A document is found in two ways.  An identifier leads to one slot, where the document is if it is
stored at all; the query for the identifier goes through all documents of the collection.  As every
document is in the slot of its own identifier, the query selects what the slot holds and nothing
else (`filter_order_idForm`).  So both ways find the same document, and removing it in either way
tells the same number and leaves the database in the same state (`Session.SameState`): it keeps the
same, and goes on alike whatever operations follow.

Removing goes by the slot alone, so it needs that the digest tells the identifiers apart.
-/

set_option autoImplicit false

namespace DocStore

open Disk (Path Unmade)
open Files (Apart Named keyName)
open Host (Machine)

/-! ## The query for an identifier -/

/-- The query for the document of an identifier, as JSON. -/
def idForm (id : String) : Json :=
  .object [("_id", Json.string id)]

/-- A document contains the query for an identifier exactly when it has the identifier. -/
theorem contains_idForm (document : Json) (id : String) :
    Json.contains document (idForm id) = (FileStore.documentId? document == some id) := by
  cases document with
  | leaf _ | array _ => rfl
  | object fields =>
      have isId : FileStore.documentId? (.object fields)
          = (fields.lookup "_id").bind Json.string? := rfl
      rw [idForm, Json.contains, Tree.contains_object, List.all_cons, List.all_nil, Bool.and_true,
        isId]
      cases fields.lookup "_id" with
      | none => rfl
      | some value =>
          cases value with
          | leaf scalar =>
              cases scalar with
              | string text =>
                  show (Scalar.string text == Scalar.string id) = (some text == some id)
                  rw [Bool.eq_iff_iff, beq_iff_eq, beq_iff_eq, Scalar.string.injEq, Option.some.injEq]
              | null | boolean _ | number _ => rfl
          | array _ | object _ => rfl

namespace Lookup

variable {β : Type}

/-- With distinct keys the entries of a key are the one that is found. -/
theorem filter_key {entries : List (String × β)} (distinct : (entries.map Prod.fst).Nodup)
    (key : String) :
    entries.filter (fun entry => entry.1 == key)
      = (entries.lookup key).toList.map fun value => (key, value) := by
  induction entries with
  | nil => rfl
  | cons entry rest ih =>
      obtain ⟨head, value⟩ := entry
      obtain ⟨notInRest, distinctRest⟩ := List.nodup_cons.mp distinct
      by_cases same : head = key
      · subst same
        have others : rest.filter (fun entry => entry.1 == head) = [] := by
          rw [ih distinctRest, lookup_eq_none_iff.mpr notInRest]
          rfl
        rw [List.filter_cons_of_pos (by simp), others, List.lookup_cons_self]
        rfl
      · have other : (key == head) = false := beq_eq_false_iff_ne.mpr (Ne.symm same)
        rw [List.filter_cons_of_neg (by simpa using same), ih distinctRest, List.lookup_cons, other]

end Lookup

/-- Where a file is not there, leaving it out changes nothing. -/
theorem Drawer.withoutFiles_of_missing {drawer : Drawer} {file : String}
    (missing : drawer.documents.lookup file = none) : drawer.withoutFiles [file] = drawer := by
  refine congrArg (fun documents => { drawer with documents }) (List.filter_eq_self.mpr ?_)
  intro entry member
  have differs : entry.1 ≠ file := by
    rintro rfl
    exact Lookup.lookup_eq_none_iff.mp missing (List.mem_map_of_mem member)
  simpa using differs

namespace Database

/-- The query for the document of an identifier, as callers pass it. -/
def idQuery (id : String) : Caller.Value :=
  .object false [("_id", .ofString id)]

/-- A name that is accepted is the text that was given. -/
theorem eq_of_checkedName {name found : String}
    (isName : checkedName (.ofString name) = .ok found) : found = name := by
  have isText : (Caller.Value.ofString name).string? = some name := rfl
  rw [checkedName, isText] at isName
  dsimp only at isName
  split at isName
  · cases isName
  · exact (Except.ok.inj isName).symm

theorem checkedQuery_idQuery (id : String) : checkedQuery (idQuery id) = .ok (idForm id) := rfl

section

variable {keeper : Keeper} {state : Cabinet × Nat} (slotted : state.1.Slotted keeper.slot)
  (generator : Nat → Identifier.Generated)
include slotted

/-- **The query for an identifier selects what its slot holds**, if that has the identifier. -/
theorem filter_order_idForm (name id : String) :
    (keeper.order (state.1.held name)).filter (fun entry =>
        Json.contains (keeper.shown entry.2) (idForm id))
      = (((state.1.held name).documents.lookup (keeper.slot id)).filter fun document =>
          FileStore.documentId? document == some id).toList.map
            fun document => (keeper.slot id, document) := by
  have permuted := keeper.order_perm (state.1.held name)
  have distinct : ((keeper.order (state.1.held name)).map Prod.fst).Nodup :=
    (permuted.map Prod.fst).nodup_iff.mpr (slotted.held name).documentsDistinct
  have selects : ∀ entry ∈ keeper.order (state.1.held name),
      Json.contains (keeper.shown entry.2) (idForm id)
        = (FileStore.documentId? entry.2 == some id && entry.1 == keeper.slot id) := by
    intro entry member
    obtain ⟨own, isShownId, isId, _, isSlot⟩ := of_mem_held slotted (permuted.mem_iff.mp member)
    rw [contains_idForm, isShownId, isId, isSlot]
    by_cases same : own = id <;> simp [same]
  rw [List.filter_congr selects, ← List.filter_filter, Lookup.filter_key distinct,
    Lookup.lookup_eq_of_perm permuted distinct]
  cases (state.1.held name).documents.lookup (keeper.slot id) with
  | none => rfl
  | some document =>
      rw [Option.filter_some]
      by_cases has : (FileStore.documentId? document == some id) = true <;> simp [has]

/-- **Finding by identifier** comes to what the query for the identifier finds. -/
theorem outcome_findOneById (collection : Caller.Value) (id : String) :
    outcome keeper generator (.findOneById collection (.ofString id)) state
      = outcome keeper generator (.findOne collection (idQuery id)) state := by
  have isCursor : cursorOf collection (idQuery id)
      = (checkedName collection).map fun name => ⟨name, idForm id⟩ := by
    rw [cursorOf]
    cases checkedName collection <;> rfl
  rw [outcome, outcome, isCursor]
  cases checkedName collection with
  | error failure => rfl
  | ok name =>
      have listed : (Contents.ofKeeper keeper state.1).selected name (idForm id) = _ :=
        selected_ofKeeper name (idForm id)
      rw [filter_order_idForm slotted] at listed
      have finds : found? keeper name id state.1
          = ((listing keeper name state.1).filter fun document =>
              Json.contains document (idForm id)).head? := by
        refine .trans ?_ (congrArg List.head? listed).symm
        rw [found?]
        cases ((state.1.held name).documents.lookup (keeper.slot id)).filter fun document =>
          FileStore.documentId? document == some id <;> rfl
      exact congrArg (fun found => (Except.ok found, state)) finds

/-- **Removing by identifier** comes to what removing one document by the query for the identifier
comes to, where each slot belongs to one identifier. -/
theorem outcome_removeOneById {name id : String}
    (apart : Set.InjOn keeper.slot
      (insert id { other | (Contents.ofKeeper keeper state.1).Has name other })) :
    outcome keeper generator (.removeOneById (.ofString name) (.ofString id)) state
      = outcome keeper generator (.removeOne (.ofString name) (idQuery id)) state := by
  have selected := filter_order_idForm slotted name id
  -- The slot holds a document of the identifier, if it holds one.
  have own : ((state.1.held name).documents.lookup (keeper.slot id)).filter (fun document =>
      FileStore.documentId? document == some id)
        = (state.1.held name).documents.lookup (keeper.slot id) := by
    cases found : (state.1.held name).documents.lookup (keeper.slot id) with
    | none => rfl
    | some document =>
        have member := Lookup.mem_of_lookup found
        obtain ⟨other, isShownId, isId, _, isSlot⟩ := of_mem_held slotted member
        have has : (Contents.ofKeeper keeper state.1).Has name other :=
          ⟨keeper.shown document, mem_listing.mpr ⟨_, member, rfl⟩, isShownId⟩
        obtain rfl : id = other := apart (Set.mem_insert _ _) (Set.mem_insert_of_mem _ has) isSlot
        rw [Option.filter_some, if_pos (beq_iff_eq.mpr isId)]
  rw [own] at selected
  rw [outcome, outcome, checkedQuery_idQuery]
  cases isName : checkedName (.ofString name) with
  | error failure => rfl
  | ok other =>
      obtain rfl := eq_of_checkedName isName
      show (_, _) = removal keeper other (idForm id) (.upTo 1) state
      rw [removal, gone_eq slotted, selected]
      cases found : (state.1.held other).documents.lookup (keeper.slot id) with
      | some document => rfl
      | none =>
          -- Nothing is left out either way.
          refine congrArg (fun cabinet => (Except.ok 0, (cabinet, state.2))) ?_
          cases there : state.1.drawer? other with
          | none => rw [Keeper.modify_of_missing there, Keeper.modify_of_missing there]
          | some drawer =>
              rw [Cabinet.held_eq there] at found
              rw [Keeper.modify_eq_putDrawer there, Keeper.modify_eq_putDrawer there,
                Drawer.withoutFiles_of_missing found]
              exact congrArg _ drawer.withoutFiles_nil.symm

end

/-! ## States of a database -/

namespace Session

/-- What lies below the root of a storage in files, apart from the locks; nothing while there is no
root. -/
def belowRoot (store : FileStore) (machine : Machine) (names : List String) : Option Node :=
  match machine.disk.locate store.root with
  | .ok ⟨home, some (.directory _), _⟩ => treeAt machine home names
  | _ => none

/-- A database keeps the same on two machines: in memory, or in the files below its root. -/
def KeepsSame (session : Session) (machine machine' : Machine) : Prop :=
  match session.backend with
  | .memory =>
      machine.memories .json session.number = machine'.memories .json session.number
  | .files store => belowRoot store machine = belowRoot store machine'

/-- A database is in the same state on two machines: it keeps the same, and every operation comes to
the same after any others. -/
structure SameState (session : Session) (machine machine' : Machine) : Prop where
  keeps : session.KeepsSame machine machine'
  goesOn : ∀ operations, (∀ operation ∈ operations, Operation.Distinct operation) →
    ∀ operation : Operation, operation.Distinct →
      ((session.after machine operations).attempt (session.perform operation)).1
        = ((session.after machine' operations).attempt (session.perform operation)).1

section

variable {session : Session} {generator : Nat → Identifier.Generated} {keeper : Keeper}
  {state : Cabinet × Nat} {machine machine' : Machine}

/-- Below the root lies what the storage keeps. -/
theorem Stands.belowRoot_eq (stands : session.Stands generator keeper state machine)
    {store : FileStore} (isFiles : session.backend = .files store) :
    belowRoot store machine = state.1.node? store.layout := by
  cases stands with
  | memory backend => exact nomatch backend.symm.trans isFiles
  | files backend _ vacant rests =>
      cases backend.symm.trans isFiles
      have tree := treeAt_of_rests rests
      obtain ⟨_, _, _, shows, keeps⟩ := rests.below
      obtain ⟨identity, located⟩ := shows.locate_root vacant
      funext names
      rw [belowRoot, located]
      exact Option.ext fun node =>
        (tree names node).trans (Contents.node?_eq_some_iff keeps.orderly).symm
  | unmade backend _ unmade =>
      cases backend.symm.trans isFiles
      have nothing : ∀ other ∈ ([] : List String), Disk.Plain other := nofun
      have nowhere := unmade.locate nothing (Nat.zero_le _)
      rw [List.append_nil, unmade.trimmed_root] at nowhere
      funext names
      rw [belowRoot]
      rcases nowhere with missing | ⟨place, missing⟩ <;> rw [missing] <;> cases names <;> rfl

/-- **A database that stands for one state on two machines is in the same state on both.** -/
theorem Stands.sameState (stands : session.Stands generator keeper state machine)
    (stands' : session.Stands generator keeper state machine')
    (slotted : state.1.Slotted keeper.slot) : session.SameState machine machine' where
  keeps := by
    unfold KeepsSame
    cases backend : session.backend with
    | memory => exact (stands.of_memory backend).2.trans (stands'.of_memory backend).2.symm
    | files store => exact (stands.belowRoot_eq backend).trans (stands'.belowRoot_eq backend).symm
  goesOn operations distinct operation isDistinct := by
    have reachedSlotted : (reached keeper generator state operations).1.Slotted keeper.slot :=
      slotted_reached slotted distinct
    exact ((stands.after slotted distinct).attempt reachedSlotted isDistinct).1.trans
      ((stands'.after slotted distinct).attempt reachedSlotted isDistinct).1.symm

end

section

variable {session : Session} {machine : Machine} {keeper : Keeper}
  (begins : session.Begins machine keeper)
include begins

/-- In memory every identifier has a slot of its own; in files the digest has to tell them apart. -/
theorem Begins.injOn_slot {ids : Set String} (apart : session.backend = .memory ∨ Apart ids) :
    Set.InjOn keeper.slot ids := by
  cases begins with
  | fresh fresh => exact fresh.injOn_slot apart
  | unmade backend =>
      exact Files.keyName_injOn (apart.resolve_left fun isMemory =>
        nomatch backend.symm.trans isMemory)

/-- **The way by the identifier agrees with the way by the query**, at every moment of a history and
over either storage.  Both find the document of the identifier that the database reports, if there
is one.  Removing it in either way tells the same number and leaves the database in the same state,
as far as the digest tells its identifiers apart. -/
theorem Begins.byId_eq_byQuery {operations : List Operation}
    (distinct : ∀ operation ∈ operations, operation.Distinct) :
    ∃ contents, session.Reports (session.after machine operations) contents ∧ ∀ name id : String,
      ((session.after machine operations).attempt
          (session.perform (.findOneById (.ofString name) (.ofString id)))).1
        = ((session.after machine operations).attempt
          (session.perform (.findOne (.ofString name) (idQuery id)))).1
      ∧ (Collection.nameFault? name = none →
        ((session.after machine operations).attempt
            (session.perform (.findOneById (.ofString name) (.ofString id)))).1
          = .ok ((contents.documents name).find? fun document =>
              FileStore.documentId? document == some id))
      ∧ ((session.backend = .memory ∨ Apart (insert id { other | contents.Has name other })) →
        ((session.after machine operations).attempt
            (session.perform (.removeOneById (.ofString name) (.ofString id)))).1
          = ((session.after machine operations).attempt
            (session.perform (.removeOne (.ofString name) (idQuery id)))).1
        ∧ session.SameState
          ((session.after machine operations).attempt
            (session.perform (.removeOneById (.ofString name) (.ofString id)))).2
          ((session.after machine operations).attempt
            (session.perform (.removeOne (.ofString name) (idQuery id)))).2) := by
  have slotted : Cabinet.Slotted keeper.slot
      (reached keeper machine.generator (Memory.empty, machine.calls) operations).1 :=
    slotted_reached Cabinet.slotted_empty distinct
  have stands := begins.after distinct
  refine ⟨_, begins.reports distinct, fun name id => ?_⟩
  generalize reached keeper machine.generator (Memory.empty, machine.calls) operations = state
    at slotted stands ⊢
  have comes (operation : Operation) (isDistinct : operation.Distinct) :=
    stands.attempt slotted isDistinct
  obtain ⟨findsById, _⟩ := comes (.findOneById (.ofString name) (.ofString id)) trivial
  obtain ⟨finds, _⟩ := comes (.findOne (.ofString name) (idQuery id)) trivial
  obtain ⟨removesById, afterById⟩ := comes (.removeOneById (.ofString name) (.ofString id)) trivial
  obtain ⟨removes, after⟩ := comes (.removeOne (.ofString name) (idQuery id)) trivial
  have sameFind := outcome_findOneById slotted machine.generator (.ofString name) id
  refine ⟨?_, fun isName => ?_, fun apart => ?_⟩
  · rw [findsById, finds, sameFind]
  · rw [findsById, sameFind, outcome, cursorOf_query (Files.named_of_nameFault? isName)
      (checkedQuery_idQuery id)]
    show Except.ok ((listing keeper name state.1).filter fun document =>
      Json.contains document (idForm id)).head? = _
    rw [List.head?_filter]
    exact congrArg (fun test => Except.ok (List.find? test _))
      (funext fun document => contains_idForm document id)
  · have isDistinct : (Operation.removeOne (.ofString name) (idQuery id)).Distinct := trivial
    rw [outcome_removeOneById slotted machine.generator (begins.injOn_slot apart)]
      at removesById afterById
    exact ⟨removesById.trans removes.symm,
      afterById.sameState after (slotted_outcome slotted isDistinct)⟩

end

end Session

/-- A collection with one document. -/
def adaStored : List Operation := [.insert (.ofString "users") ada]

/-- In files that have been made from nothing, a document is removed by its identifier or by the
query for it. -/
theorem ada_removed_either_way :
    newSession.Begins Machine.start (.files newStore)
      ∧ (∀ operation ∈ adaStored, operation.Distinct)
      ∧ Collection.nameFault? "users" = none
      ∧ ∃ contents, newSession.Reports (newSession.after Machine.start adaStored) contents
        ∧ Apart (insert "ada" { other | contents.Has "users" other })
        ∧ ((newSession.after Machine.start adaStored).attempt
            (newSession.perform (.findOneById (.ofString "users") (.ofString "ada")))).1
          = .ok ((contents.documents "users").find? fun document =>
              FileStore.documentId? document == some "ada")
        ∧ ((newSession.after Machine.start adaStored).attempt
            (newSession.perform (.removeOneById (.ofString "users") (.ofString "ada")))).1
          = ((newSession.after Machine.start adaStored).attempt
            (newSession.perform (.removeOne (.ofString "users") (idQuery "ada")))).1
        ∧ newSession.SameState
          ((newSession.after Machine.start adaStored).attempt
            (newSession.perform (.removeOneById (.ofString "users") (.ofString "ada")))).2
          ((newSession.after Machine.start adaStored).attempt
            (newSession.perform (.removeOne (.ofString "users") (idQuery "ada")))).2 := by
  have distinct : ∀ operation ∈ adaStored, operation.Distinct := by
    simpa [adaStored, Operation.Distinct] using distinct_ada
  have isName : Collection.nameFault? "users" = none := by decide
  obtain ⟨contents, reports, agrees⟩ := begins_start.byId_eq_byQuery distinct
  obtain ⟨_, found, removed⟩ := agrees "users" "ada"
  have isAll : (Operation.find (.ofString "users") .absent).Distinct := trivial
  have documents : contents.documents "users" = [.object [("_id", Json.string "ada")]] :=
    Except.ok.inj ((reports.documents "users" isName).symm.trans
      ((begins_start.attempt_eq distinct isAll).trans rfl))
  have only : ∀ id ∈ insert "ada" { other | contents.Has "users" other }, id = "ada" := by
    rintro id (rfl | ⟨document, member, isId⟩)
    · rfl
    · rw [documents, List.mem_singleton] at member
      rw [member] at isId
      exact (Option.some.inj isId).symm
  have apart : Apart (insert "ada" { other | contents.Has "users" other }) :=
    fun id inIds id' inIds' _ => (only id inIds).trans (only id' inIds').symm
  exact ⟨begins_start, distinct, isName, contents, reports, apart, found isName,
    removed (.inr apart)⟩

end Database

end DocStore
