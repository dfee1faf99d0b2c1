import DocStore.Proofs.Database.Alone
import DocStore.Proofs.Database.Reads
import DocStore.Proofs.Files.Healthy
/-!
# Steps of a database over a healthy storage

`Session.EndsAlone` says of a step that concerns one collection how it ends when nobody else is
about: with which results, and what lies below the root then; nothing has changed but under the name
of the collection.  There is one rule for each way to build a step, and the procedures for one
collection follow from what the storage does (`DocStore.Proofs.Files.Healthy`).

What writes fails only while everything is as it was before: a collection is created before a
document or a constraint is added to it, and what is refused later on is refused for something
that has been in the collection already (`endsAlone_insertLocked`).
-/

set_option autoImplicit false

namespace DocStore.Database

open Disk (Branch Place Shows Vacant)
open DocStore.FileStore (DifferUnder Furnished Healthy Stores Unfilled hasCollection)
open Files (Named keyName)
open Host (Machine Secures anyMoves)

namespace Session

/-- A machine with a generator and a branch below a root. -/
structure Finds (origin : Disk) (home : Place) (generator : Nat → Identifier.Generated)
    (view : Branch) (machine : Machine) : Prop where
  generator : machine.generator = generator
  shows : Shows origin home view machine.disk

/-- A step that concerns one collection ends with a result and a branch that go together, and
changes nothing but under the name of the collection. -/
def EndsAlone {α : Type} (session : Session) (origin : Disk) (home : Place)
    (generator : Nat → Identifier.Generated) (name : String) (view : Branch) (action : Action α)
    (ends : Except Failure α → Branch → Prop) : Prop :=
  ∀ machine, Finds origin home generator view machine → ∃ view',
    Finds origin home generator view' (Attempt.eval session.answer action machine).2
      ∧ DifferUnder name view view' ∧ ends (Attempt.eval session.answer action machine).1 view'

/-- A step that fails has changed nothing. -/
def SparesAll {α : Type} (view : Branch) (result : Except Failure α) (view' : Branch) : Prop :=
  ∀ failure, result = .error failure → view' = view

/-- A step that fails has changed nothing, and there are files in the collection. -/
def SparesFilled {α : Type} (name : String) (view : Branch) (result : Except Failure α)
    (view' : Branch) : Prop :=
  ∀ failure, result = .error failure → view' = view ∧ ¬ Unfilled view name

theorem sparesAll_ok {α : Type} {view view' : Branch} {value : α} :
    SparesAll view (.ok value) view' := fun _ fails => nomatch fails

theorem sparesFilled_ok {α : Type} {name : String} {view view' : Branch} {value : α} :
    SparesFilled name view (.ok value) view' := fun _ fails => nomatch fails

namespace EndsAlone

variable {α β : Type} {session : Session} {origin : Disk} {home : Place}
  {generator : Nat → Identifier.Generated} {name : String} {view : Branch}
  {ends ends' : Except Failure α → Branch → Prop}

theorem mono {action : Action α}
    (works : session.EndsAlone origin home generator name view action ends)
    (implies : ∀ result view', DifferUnder name view view' → ends result view' →
      ends' result view') : session.EndsAlone origin home generator name view action ends' := by
  intro machine finds
  obtain ⟨view', finds', differ, held⟩ := works machine finds
  exact ⟨view', finds', differ, implies _ _ differ held⟩

theorem ofExcept {result : Except Failure α} (held : ends result view) :
    session.EndsAlone origin home generator name view (Attempt.ofExcept result) ends :=
  fun _ finds => ⟨view, finds, .refl name view, held⟩

theorem pure {value : α} (held : ends (.ok value) view) :
    session.EndsAlone origin home generator name view (Pure.pure value) ends := ofExcept held

theorem fail {failure : Failure} (held : ends (.error failure) view) :
    session.EndsAlone origin home generator name view (Attempt.fail failure) ends := ofExcept held

/-- One step after another. -/
theorem bind {first : Action α} {next : α → Action β} {ends' : Except Failure β → Branch → Prop}
    (works : session.EndsAlone origin home generator name view first ends)
    (goesOn : ∀ value view', ends (.ok value) view' →
      session.EndsAlone origin home generator name view' (next value) ends')
    (fails : ∀ failure view', ends (.error failure) view' → ends' (.error failure) view') :
    session.EndsAlone origin home generator name view (first >>= next) ends' := by
  intro machine finds
  obtain ⟨view', finds', differ, held⟩ := works machine finds
  rw [Attempt.eval_bind]
  cases result : (Attempt.eval session.answer first machine).1 with
  | ok value =>
      rw [result] at held
      obtain ⟨view'', finds'', differ', held'⟩ := goesOn value view' held _ finds'
      exact ⟨view'', finds'', differ.trans differ', held'⟩
  | error failure =>
      rw [result] at held
      exact ⟨view', finds', differ, fails failure view' held⟩

/-- A step that always succeeds goes on. -/
theorem bind_ok {first : Action α} {next : α → Action β} {ends' : Except Failure β → Branch → Prop}
    {kept : α → Branch → Prop} (works : session.EndsAlone origin home generator name view first
      fun result view' => ∃ value, result = .ok value ∧ kept value view')
    (goesOn : ∀ value view', kept value view' →
      session.EndsAlone origin home generator name view' (next value) ends') :
    session.EndsAlone origin home generator name view (first >>= next) ends' := by
  refine works.bind (fun value view' held => ?_) fun failure view' held => ?_
  · obtain ⟨value', same, held⟩ := held
    cases same
    exact goesOn value view' held
  · obtain ⟨_, same, _⟩ := held
    cases same

/-- A result that is known goes on at once. -/
theorem ofExcept_bind {result : Except Failure α} {next : α → Action β}
    {ends' : Except Failure β → Branch → Prop}
    (goesOn : ∀ value, result = .ok value →
      session.EndsAlone origin home generator name view (next value) ends')
    (fails : ∀ failure, result = .error failure → ends' (.error failure) view) :
    session.EndsAlone origin home generator name view (Attempt.ofExcept result >>= next) ends' := by
  cases result with
  | ok value => exact goesOn value rfl
  | error failure => exact fail (fails failure rfl)

theorem waitFor {body : Action α}
    (works : session.EndsAlone origin home generator name view body ends) :
    session.EndsAlone origin home generator name view (Database.waitFor body) ends := by
  intro machine finds
  have waits : Attempt.eval session.answer (Database.waitFor body) machine
      = Attempt.eval session.answer body machine := Attempt.eval_andFinally_ok _ rfl
  rw [waits]
  exact works machine finds

theorem resultOf {result : Except Failure α} (held : ends result view) :
    session.EndsAlone origin home generator name view (@Database.resultOf .json α result) ends :=
  waitFor (ofExcept held)

/-- Telling that something has happened changes nothing. -/
theorem tell {notice : Notice .json} {ends : Except Failure Unit → Branch → Prop}
    (held : ends (.ok ()) view) :
    session.EndsAlone origin home generator name view (Database.tell notice) ends := by
  intro machine finds
  obtain ⟨printed, run⟩ := session.exists_tell notice machine
  have told : Attempt.eval session.answer (Database.tell notice) machine
      = (.ok (), { machine with printed }) := run
  rw [told]
  exact ⟨view, ⟨finds.generator, finds.shows⟩, .refl name view, held⟩

theorem bind_tell {notice : Notice .json} {next : Unit → Action α}
    (works : session.EndsAlone origin home generator name view (next ()) ends) :
    session.EndsAlone origin home generator name view (Database.tell notice >>= next) ends := by
  have tells : session.EndsAlone origin home generator name view (Database.tell notice)
      fun result view' => ∃ told, result = .ok told ∧ view' = view := tell ⟨(), rfl, rfl⟩
  exact bind_ok tells fun _ _ same => same ▸ works

/-- A step for each element of a list, as long as each succeeds and keeps an invariant. -/
theorem forEach {ι : Type} {action : ι → Action α} {invariant : Branch → Prop}
    (each : ∀ element view, invariant view →
      session.EndsAlone origin home generator name view (action element) fun result view' =>
        ∃ value, result = .ok value ∧ invariant view') (list : List ι) (holds : invariant view) :
    session.EndsAlone origin home generator name view (Attempt.forEach list action) fun result view' =>
      ∃ values, result = .ok values ∧ invariant view' := by
  induction list generalizing view with
  | nil => exact pure ⟨[], rfl, holds⟩
  | cons head rest ih =>
      exact bind_ok (each head view holds) fun _ _ holds' =>
        bind_ok (ih holds') fun _ _ holds'' => pure ⟨_, rfl, holds''⟩

end EndsAlone

/-! ## Over files -/

section

variable {session : Session} {store : FileStore} (isBackend : session.backend = .files store)
  {origin : Disk} {home : Place} (vacant : Vacant origin store.root home)
  {generator : Nat → Identifier.Generated} {name : String} (named : Named name) {view : Branch}

section

include isBackend

/-- What the storage does is what asking it comes to. -/
theorem endsAlone_store {op : Storage.Op .json} {ends : op.Answer → Branch → Prop}
    (acts : ∀ disk, Shows origin home view disk → ∃ result,
      Secures anyMoves origin home Set.univ view (store.perform op) result
        fun view' => DifferUnder name view view' ∧ ends result view') :
    session.EndsAlone origin home generator name view (storeOn op) ends := by
  intro machine finds
  obtain ⟨result, secures⟩ := acts machine.disk finds.shows
  obtain ⟨after, view', run, same, shows, differ, held⟩ := secures.yields finds.shows
  have asked : Attempt.eval session.answer (storeOn op) machine = (result, after) := by
    show machine.run (session.meaning (.store op)) = (result, after)
    rw [meaning, isBackend]
    exact run
  rw [asked]
  exact ⟨view', ⟨same.generator.trans finds.generator, shows⟩, differ, held⟩

end

/-- Reading changes nothing. -/
theorem endsAlone_reads {op : Storage.Op .json} (reads : op.Reads) (fits : op.Fits) :
    session.EndsAlone origin home generator name view (storeOn op) fun _ view' => view' = view := by
  intro machine finds
  have isRead : Request.Reads (.store op) := ⟨reads, fits⟩
  have same : (Attempt.eval session.answer (storeOn op) machine).2 = machine :=
    session.answer_reads machine isRead
  rw [same]
  exact ⟨view, finds, .refl name view, rfl⟩

/-- Where a generator gives identifiers one is made. -/
theorem endsAlone_generate (usable : ∀ call, ∃ id, Identifier.check (generator call) = .ok id) :
    session.EndsAlone origin home generator name view generate fun result view' =>
      ∃ id, result = .ok id ∧ view' = view := by
  intro machine finds
  obtain ⟨id, isId⟩ := usable machine.calls
  have step : Attempt.eval session.answer (Attempt.request (I := interface .json) .generate) machine
      = (.ok (machine.generator machine.calls), { machine with calls := machine.calls + 1 }) := rfl
  rw [← finds.generator] at isId
  rw [generate, Attempt.eval_bind_ok step, isId]
  exact ⟨view, ⟨finds.generator, finds.shows⟩, .refl name view, id, rfl, rfl⟩

include named in
theorem endsAlone_active :
    session.EndsAlone origin home generator name view (@Constraints.active .json name)
      fun _ view' => view' = view :=
  .bind (endsAlone_reads trivial named) (fun _ _ same => same ▸ .ofExcept_bind (fun _ _ => .pure rfl)
    fun _ _ => rfl) fun _ _ same => same

include isBackend vacant named

/-! ## Procedures for one collection -/

/-- What a collection without files asks of documents is nothing. -/
theorem endsAlone_active_unfilled (furnished : Furnished view name) (unfilled : Unfilled view name) :
    session.EndsAlone origin home generator name view (@Constraints.active .json name)
      fun result view' => result = .ok [] ∧ view' = view := by
  have none : session.EndsAlone origin home generator name view (storeOn (.checks name))
      fun result view' => ∃ value, result = .ok value ∧ (value = [] ∧ view' = view) :=
    endsAlone_store isBackend fun disk shows => ⟨.ok [],
      (furnished.checks_unfilled vacant (Set.mem_univ name) named shows unfilled).mono
        fun _ same => ⟨fun _ _ => same ▸ rfl, [], rfl, rfl, same.symm⟩⟩
  refine .bind_ok none fun value view' held => ?_
  obtain ⟨rfl, rfl⟩ := held
  exact .ofExcept_bind (fun sorted isSorted => .pure ⟨by cases isSorted; rfl, rfl⟩)
    fun _ isFailure => nomatch isFailure

/-- A collection is made unless it is there; in a new one there are no files. -/
theorem endsAlone_make (healthy : Healthy view) :
    session.EndsAlone origin home generator name view (storeOn (.create name)) fun result view' =>
      ∃ told, result = .ok told ∧ Furnished view' name ∧ (view' = view ∨ Unfilled view' name) :=
  endsAlone_store isBackend fun _ _ => by
    obtain ⟨told, creates⟩ := healthy.create vacant (Set.mem_univ name) named
    exact ⟨.ok told, creates.mono fun _ ⟨differ, held⟩ => ⟨differ, told, rfl, held⟩⟩

/-- With a collection that is created what is healthy stays so. -/
theorem endsAlone_create (healthy : Healthy view) :
    session.EndsAlone origin home generator name view (@Registry.create .json name)
      fun result view' => ∃ told, result = .ok told ∧ Healthy view' ∧ Furnished view' name
        ∧ (view' = view ∨ Unfilled view' name) := by
  have makes : session.EndsAlone origin home generator name view (@Registry.create .json name)
      fun result view' => ∃ told, result = .ok told ∧ Furnished view' name
        ∧ (view' = view ∨ Unfilled view' name) := by
    refine .bind_ok (endsAlone_make isBackend vacant named healthy) fun told view' held => ?_
    cases told with
    | true => exact .bind_tell (.pure ⟨true, rfl, held⟩)
    | false => exact .pure ⟨false, rfl, held⟩
  refine makes.mono fun result view' differ ⟨told, isOk, furnished, or⟩ =>
    ⟨told, isOk, ?_, furnished, or⟩
  rcases or with rfl | unfilled
  · exact healthy
  · exact healthy.addUnfilled differ named furnished unfilled

theorem endsAlone_broken (furnished : Furnished view name) (document : Json) :
    session.EndsAlone origin home generator name view (@Constraints.broken .json name document)
      fun result view' => view' = view ∧ (Unfilled view name → result = .ok []) := by
  have asks : session.EndsAlone origin home generator name view (@Constraints.active .json name)
      fun result view' => view' = view ∧ (Unfilled view name → result = .ok []) := by
    by_cases unfilled : Unfilled view name
    · exact (endsAlone_active_unfilled isBackend vacant named furnished unfilled).mono
        fun _ _ _ ⟨nothing, same⟩ => ⟨same, fun _ => nothing⟩
    · exact (endsAlone_active named).mono fun _ _ _ same => ⟨same, fun none => absurd none unfilled⟩
  refine asks.waitFor.bind (fun checks view' held => ?_) fun failure view' held =>
    ⟨held.1, fun unfilled => nomatch held.2 unfilled⟩
  obtain ⟨rfl, nothing⟩ := held
  refine .ofExcept_bind (fun found isFound => .pure ⟨rfl, fun unfilled => ?_⟩)
    fun failure isFailure => ⟨rfl, fun unfilled => ?_⟩
  · cases nothing unfilled
    cases isFound
    rfl
  · cases nothing unfilled
    cases isFailure

/-- **A document is refused** for a constraint only, so not in a collection without files. -/
theorem endsAlone_enforce (furnished : Furnished view name) (document : Json) :
    session.EndsAlone origin home generator name view (@Constraints.enforce .json name document)
      fun result view' => view' = view ∧ (Unfilled view name → result = .ok ()) := by
  refine (endsAlone_broken isBackend vacant named furnished document).waitFor.bind
    (fun found view' held => ?_) fun failure view' held =>
      ⟨held.1, fun unfilled => nomatch held.2 unfilled⟩
  obtain ⟨rfl, nothing⟩ := held
  cases found with
  | nil => exact .pure ⟨rfl, fun _ => rfl⟩
  | cons first others =>
      have filled : ¬ Unfilled view' name := fun unfilled => nomatch nothing unfilled
      exact .bind_tell (.ofExcept_bind (fun _ _ => .fail ⟨rfl, fun none => absurd none filled⟩)
        fun _ _ => ⟨rfl, fun none => absurd none filled⟩)

/-- The file of a new document is created, unless there is one. -/
theorem endsAlone_put (furnished : Furnished view name) (id : String) (document : Json) :
    session.EndsAlone origin home generator name view (storeOn (.put name id document))
      (SparesFilled name view) := endsAlone_store isBackend fun disk shows => by
  have path : store.documentPath name id = store.root.trimmed ++ ([name, "docs"] ++ [keyName id]) :=
    FileStore.filePath_eq vacant.resolved named (.inl rfl) (keyName id)
  obtain ⟨made, creates⟩ := furnished.createFile vacant (Set.mem_univ name) named (.inl rfl)
    (Files.stored_keyName id) (store.documentText document)
  rw [← path] at creates
  cases made with
  | true =>
      exact ⟨.ok (), .bind creates fun view' ⟨differ, _, _⟩ => .pure () ⟨differ, sparesFilled_ok⟩⟩
  | false => exact ⟨_, .bind creates fun view' ⟨differ, _, taken⟩ =>
      .fail _ ⟨differ, fun _ _ => taken rfl⟩⟩

/-- A document that is not inserted is refused for what has been in the collection. -/
theorem endsAlone_insertLocked (usable : ∀ call, ∃ id, Identifier.check (generator call) = .ok id)
    (furnished : Furnished view name) (fields : List (String × Json)) :
    session.EndsAlone origin home generator name view (Documents.insertLocked name fields)
      (SparesFilled name view) := by
  have inserts (id : String) (document : Json) :
      session.EndsAlone origin home generator name view (do
        waitFor (@Constraints.enforce .json name document)
        Database.store (.put name id document)
        logDocuments "document.insert" name id
        return id) (SparesFilled name view) := by
    refine (endsAlone_enforce isBackend vacant named furnished document).waitFor.bind
      (fun _ view' held => ?_) fun failure view' held failure' _ =>
        ⟨held.1, fun unfilled => nomatch held.2 unfilled⟩
    obtain ⟨rfl, _⟩ := held
    exact (endsAlone_put isBackend vacant named furnished id document).bind
      (fun _ _ _ => .bind_tell (.pure sparesFilled_ok))
      fun failure _ held failure' _ => held failure rfl
  unfold Documents.insertLocked
  cases givenId? fields with
  | some id => exact inserts id _
  | none =>
      refine .bind_ok (endsAlone_generate usable) fun id view' same => ?_
      subst same
      exact inserts id _

/-- What fails in a collection with files alone spares what was there before its creation. -/
theorem endsAlone_created {α : Type} (healthy : Healthy view) {next : Bool → Action α}
    (goesOn : ∀ told view', Healthy view' → Furnished view' name →
      session.EndsAlone origin home generator name view' (next told) (SparesFilled name view')) :
    session.EndsAlone origin home generator name view
      (waitFor (@Registry.create .json name) >>= next) (SparesAll view) := by
  refine .bind_ok (endsAlone_create isBackend vacant named healthy).waitFor
    fun told view' ⟨healthy', furnished, or⟩ => ?_
  refine (goesOn told view' healthy' furnished).mono fun result view'' _ spares failure fails => ?_
  obtain ⟨same, filled⟩ := spares failure fails
  exact same.trans (or.resolve_right filled)

section

variable (usable : ∀ call, ∃ id, Identifier.check (generator call) = .ok id)
  (healthy : Healthy view) (fields : List (String × Json))
include usable healthy

/-- **A document that is not inserted** leaves everything as it was. -/
theorem endsAlone_insert :
    session.EndsAlone origin home generator name view (do
      let _ ← waitFor (@Registry.create .json name)
      waitFor (Documents.insertLocked name fields)) (SparesAll view) :=
  endsAlone_created isBackend vacant named healthy fun _ _ _ furnished =>
    (endsAlone_insertLocked isBackend vacant named usable furnished fields).waitFor

/-- **A document that is not saved** leaves everything as it was. -/
theorem endsAlone_save :
    session.EndsAlone origin home generator name view (do
      let _ ← waitFor (@Registry.create .json name)
      match givenId? fields with
      | none => waitFor (Documents.insertLocked name fields)
      | some id =>
          match ← Database.store (.get name id) with
          | none => waitFor (Documents.insertLocked name fields)
          | some _ => do
              waitFor (@Constraints.enforce .json name (Tree.object fields))
              let _ ← Database.store (.replace name id (Tree.object fields))
              logDocuments "document.replace" name id
              return id) (SparesAll view) := by
  refine endsAlone_created isBackend vacant named healthy fun _ view' healthy' furnished => ?_
  have inserts := (endsAlone_insertLocked isBackend vacant named usable furnished fields).waitFor
  cases givenId? fields with
  | none => exact inserts
  | some id =>
      have gets : session.EndsAlone origin home generator name view' (storeOn (.get name id))
          fun result view'' => ∃ found, result = .ok found ∧ view'' = view' :=
        endsAlone_store isBackend fun disk shows => by
          obtain ⟨found, gets, _⟩ := healthy'.get vacant (Set.mem_univ name) named id
          exact ⟨.ok found, gets.mono fun _ same => same ▸ ⟨.refl name view', found, rfl, rfl⟩⟩
      have replaces : session.EndsAlone origin home generator name view'
          (storeOn (.replace name id (Tree.object fields))) (SparesFilled name view') :=
        endsAlone_store isBackend fun disk shows => by
          have path : store.documentPath name id
              = store.root.trimmed ++ ([name, "docs"] ++ [keyName id]) :=
            FileStore.filePath_eq vacant.resolved named (.inl rfl) (keyName id)
          obtain ⟨told, replaces⟩ := furnished.replaceText vacant (Set.mem_univ name) named
            (.inl rfl) (Files.stored_keyName id) (store.documentText (Tree.object fields))
          rw [← path] at replaces
          exact ⟨.ok told, replaces.mono fun _ differ => ⟨differ, sparesFilled_ok⟩⟩
      refine .bind_ok gets fun found view'' same => ?_
      subst same
      cases found with
      | none => exact inserts
      | some document =>
          refine (endsAlone_enforce isBackend vacant named furnished _).waitFor.bind
            (fun _ view'' held => ?_) fun failure _ held _ _ =>
              ⟨held.1, fun unfilled => nomatch held.2 unfilled⟩
          obtain ⟨rfl, _⟩ := held
          exact replaces.bind (fun _ _ _ => .bind_tell (.pure sparesFilled_ok))
            fun failure _ held _ _ => held failure rfl

end

/-- **A collection is dropped** if there is one, and else nothing changes. -/
theorem endsAlone_drop (healthy : Healthy view) :
    session.EndsAlone origin home generator name view (@Registry.drop .json name)
      fun result view' => result = .ok (hasCollection view name)
        ∧ (hasCollection view name = false → view' = view) := by
  have drops : session.EndsAlone origin home generator name view (storeOn (.drop name))
      fun result view' => ∃ dropped, result = .ok dropped ∧ dropped = hasCollection view name
        ∧ (hasCollection view name = false → view' = view) :=
    endsAlone_store isBackend fun _ _ => ⟨.ok (hasCollection view name),
      (healthy.drop vacant (Set.mem_univ name) named).mono fun _ ⟨differ, spares⟩ =>
        ⟨differ, _, rfl, rfl, spares⟩⟩
  refine .bind_ok drops fun dropped view' ⟨isDropped, spares⟩ => ?_
  subst isDropped
  split
  · exact .bind_tell (.pure ⟨rfl, spares⟩)
  · exact .pure ⟨rfl, spares⟩

theorem endsAlone_exists (healthy : Healthy view) :
    session.EndsAlone origin home generator name view (storeOn (.exists name))
      fun result view' => ∃ found, result = .ok found ∧ found = hasCollection view name
        ∧ view' = view :=
  endsAlone_store isBackend fun _ _ => ⟨.ok (hasCollection view name),
    (healthy.exists? vacant (Set.mem_univ name) named).mono fun _ same =>
      same ▸ ⟨.refl name view, _, rfl, rfl, rfl⟩⟩

/-- Removing the documents that contain a query does not fail. -/
theorem endsAlone_remove (healthy : Healthy view) (query : Json) {limit : Storage.Limit}
    (comparable : limit ≠ .incomparable) :
    session.EndsAlone origin home generator name view (do
      if ← Database.store (.exists name) then
        let removed ← Database.store (.deleteMatching name query limit)
        if removed ≠ [] then
          logDocuments "document.remove" name (toString removed.length ++ " document(s)")
        return removed.length
      else return 0) (SparesAll view) := by
  refine .bind_ok (endsAlone_exists isBackend vacant named healthy) fun found view' ⟨exist, same⟩ => ?_
  subst same
  cases found with
  | false => exact .pure sparesAll_ok
  | true =>
      have furnished := healthy.furnished named.ne_lockDirectory exist.symm
      have removes : session.EndsAlone origin home generator name view'
          (storeOn (.deleteMatching name query limit))
          fun result _ => ∃ removed, result = .ok removed ∧ True :=
        endsAlone_store isBackend fun disk shows => by
          obtain ⟨removed, removes⟩ := healthy.deleteMatching vacant (Set.mem_univ name) named shows
            furnished (fun document => Json.contains document query) comparable
          exact ⟨.ok removed, removes.mono fun _ differ => ⟨differ, removed, rfl, trivial⟩⟩
      refine .bind_ok removes fun removed _ _ => ?_
      split
      · exact .bind_tell (.pure sparesAll_ok)
      · exact .pure sparesAll_ok

/-- The file of a document is removed if it is there, and else nothing changes. -/
theorem endsAlone_removeById (healthy : Healthy view) (id : String) :
    session.EndsAlone origin home generator name view (do
      if ← Database.store (.exists name) then
        let removed ← Database.store (.deleteById name id)
        if removed then logDocuments "document.remove" name id
        return if removed then 1 else 0
      else return 0) fun result view' => ∃ count, result = .ok count
        ∧ (count = 0 ↔ view [name, "docs", keyName id] = none) ∧ (count = 0 → view' = view) := by
  have roomy := healthy.furnished_or named.ne_lockDirectory
  refine .bind_ok (endsAlone_exists isBackend vacant named healthy) fun found view' ⟨exist, same⟩ => ?_
  subst same
  cases found with
  | false =>
      have missing := healthy.missing named.ne_lockDirectory exist.symm
      exact .pure ⟨0, rfl, iff_of_true rfl (missing _), fun _ => rfl⟩
  | true =>
      have removes : session.EndsAlone origin home generator name view' (storeOn (.deleteById name id))
          fun result view'' => ∃ removed, result = .ok removed
            ∧ removed = (view' [name, "docs", keyName id]).isSome
            ∧ view'' = Function.update view' [name, "docs", keyName id] none :=
        endsAlone_store isBackend fun _ _ => by
          have path : store.documentPath name id
              = store.root.trimmed ++ ([name, "docs"] ++ [keyName id]) :=
            FileStore.filePath_eq vacant.resolved named (.inl rfl) (keyName id)
          have removes := FileStore.removes_file vacant (Set.mem_univ name) named roomy (.inl rfl)
            (Files.stored_keyName id)
          rw [← path] at removes
          exact ⟨_, removes.mono fun _ same =>
            same ▸ ⟨FileStore.differUnder_update _ _ _, _, rfl, rfl, rfl⟩⟩
      refine .bind_ok removes fun removed view'' ⟨isRemoved, same⟩ => ?_
      cases found : view' [name, "docs", keyName id] with
      | none =>
          rw [← found, Function.update_eq_self] at same
          rw [found] at isRemoved
          subst isRemoved
          exact .pure ⟨0, rfl, iff_of_true rfl rfl, fun _ => same⟩
      | some entry =>
          rw [found] at isRemoved
          subst isRemoved
          exact .bind_tell (.pure ⟨1, rfl, iff_of_false Nat.one_ne_zero (by simp),
            fun isZero => absurd isZero Nat.one_ne_zero⟩)

/-! ### Constraints -/

/-- **Constraints that are not added** leave everything as it was. -/
theorem endsAlone_add (healthy : Healthy view) (spec : Caller.Value) :
    session.EndsAlone origin home generator name view (@Constraints.add .json name spec)
      (SparesAll view) := by
  have addOne (constraint : Constraint) (view : Branch) (furnished : Furnished view name) :
      session.EndsAlone origin home generator name view
        (@Constraints.addOne .json name constraint) fun result view' =>
          ∃ value, result = .ok value ∧ Furnished view' name := by
    have adds : session.EndsAlone origin home generator name view
        (storeOn (.addCheck name (Content.json.keyOf constraint.name) constraint))
        fun result view' => ∃ value, result = .ok value ∧ Furnished view' name :=
      endsAlone_store isBackend fun _ _ => by
        have path : store.checkPath name constraint.name
            = store.root.trimmed ++ ([name, "constraints"] ++ [keyName constraint.name]) :=
          FileStore.filePath_eq vacant.resolved named (.inr rfl) (keyName constraint.name)
        obtain ⟨made, creates⟩ := furnished.createFile vacant (Set.mem_univ name) named (.inr rfl)
          (Files.stored_keyName constraint.name) (store.checkText ⟨constraint.name, constraint⟩)
        rw [← path] at creates
        exact ⟨.ok made, creates.mono fun _ ⟨differ, furnished', _⟩ =>
          ⟨differ, made, rfl, furnished'⟩⟩
    refine .bind_ok adds fun added view' furnished' => ?_
    cases added with
    | true => exact .bind_tell (.pure ⟨true, rfl, furnished'⟩)
    | false => exact .pure ⟨false, rfl, furnished'⟩
  unfold Constraints.add
  split
  · exact .resultOf fun _ _ => rfl
  · exact .resultOf sparesAll_ok
  · refine (endsAlone_active named).waitFor.bind (fun existing view' same => ?_)
      fun _ _ same _ _ => same
    subst same
    split
    · exact .fail fun _ _ => rfl
    · exact .bind_ok (endsAlone_make isBackend vacant named healthy) fun _ _ ⟨furnished, _⟩ =>
        .bind_ok (.forEach addOne _ furnished) fun _ _ _ => .pure sparesAll_ok

/-- Removing constraints does not fail once the specification has been accepted. -/
theorem endsAlone_removeConstraints (healthy : Healthy view) (spec : Caller.Value) :
    session.EndsAlone origin home generator name view (@Constraints.remove .json name spec)
      (SparesAll view) := by
  have removeOne (constraint : Constraint) (view : Branch)
      (roomy : Furnished view name ∨ ∀ rest, view (name :: rest) = none) :
      session.EndsAlone origin home generator name view
        (@Constraints.removeOne .json name constraint) fun result view' =>
          ∃ value, result = .ok value
            ∧ (Furnished view' name ∨ ∀ rest, view' (name :: rest) = none) := by
    have removes : session.EndsAlone origin home generator name view
        (storeOn (.dropCheck name (Content.json.keyOf constraint.name)))
        fun result view' => ∃ value, result = .ok value
          ∧ (Furnished view' name ∨ ∀ rest, view' (name :: rest) = none) :=
      endsAlone_store isBackend fun _ _ => by
        have path : store.checkPath name constraint.name
            = store.root.trimmed ++ ([name, "constraints"] ++ [keyName constraint.name]) :=
          FileStore.filePath_eq vacant.resolved named (.inr rfl) (keyName constraint.name)
        have stored := Files.stored_keyName constraint.name
        have removes := FileStore.removes_file vacant (Set.mem_univ name) named roomy (.inr rfl)
          stored
        rw [← path] at removes
        refine ⟨_, removes.mono fun _ same =>
          same ▸ ⟨FileStore.differUnder_update _ _ _, _, rfl, ?_⟩⟩
        exact roomy.imp (fun furnished => furnished.update (.inr rfl) stored nofun)
          fun missing rest => by rw [Function.update_apply, missing, ite_self]
    refine .bind_ok removes fun removed view' roomy' => ?_
    cases removed with
    | true => exact .bind_tell (.pure ⟨true, rfl, roomy'⟩)
    | false => exact .pure ⟨false, rfl, roomy'⟩
  unfold Constraints.remove
  split
  · exact .resultOf fun _ _ => rfl
  · exact .resultOf sparesAll_ok
  · exact .bind_ok (.forEach removeOne _ (healthy.furnished_or named.ne_lockDirectory))
      fun _ _ _ => .pure sparesAll_ok

end

end Session

end DocStore.Database
