import DocStore.Database.Session
import DocStore.Proofs.Database.Requests
import DocStore.Proofs.Files.Failures
/-!
# What the operations of a database fail with

Over files, an operation fails with a fault of the database or with one of the few failures that
nothing wraps, whatever the disk answers (`Session.perform_fails`).  What takes no lock creates
nothing either: it fails with a fault of the database only (`Session.perform_fails_looks`).  Since
none of these failures chooses an exit code, a command that passes one on ends with the code 1
(`Failure.Refusal.exitCode`).
-/

set_option autoImplicit false

namespace DocStore

open Failure (Wrapped Unwrapped Refusal)

theorem Failure.Refusal.exitCode {failure : Failure} (refusal : failure.Refusal) :
    failure.exitCode = 1 := by
  rcases refusal with wrapped | unwrapped
  · cases wrapped
    rfl
  · cases unwrapped <;> rfl

namespace Database

open Host (Fails)

/-- The answers that a database over files gets: what reads fails with a fault of the database, and
telling does not fail. -/
def Request.Refuses : (request : Request .json) → request.Answer → Prop
  | .store op, answer => Attempt.Only Refusal answer ∧ (op.Reads → Attempt.Only Wrapped answer)
  | .lock _, answer | .unlock _, answer => Attempt.Only Refusal answer
  | .tell _, answer => Attempt.Only (fun _ => False) answer
  | .generate, _ | .giveWay, _ => True

/-- An action over files fails with failures of a kind only. -/
abbrev Refuses {α : Type} (kind : Failure → Prop) (action : Action α) : Prop :=
  action.FailsWith Request.Refuses kind

variable {α : Type} {kind : Failure → Prop}

/-! ## Single requests -/

theorem refuses_store (op : Storage.Op .json) : Refuses Refusal (storeOn op) :=
  .ask fun _ only => .done only.1

theorem refuses_reads {op : Storage.Op .json} (reads : op.Reads) : Refuses Wrapped (storeOn op) :=
  .ask fun _ only => .done (only.2 reads)

theorem refuses_tell (notice : Notice .json) : Refuses kind (tell notice) :=
  .ask fun _ only => .done (only.mono fun _ impossible => impossible.elim)

theorem refuses_giveWay : Refuses kind (@giveWay .json) := .request _

theorem refuses_waitFor {body : Action α} (refuses : Refuses kind body) :
    Refuses kind (waitFor body) := refuses.andFinally refuses_giveWay

theorem refuses_resultOf {result : Except Failure α} (only : Attempt.Only kind result) :
    Refuses kind (@resultOf .json α result) := refuses_waitFor (.ofExcept only)

theorem refuses_holding (name : String) {body : Action α} (refuses : Refuses Refusal body) :
    Refuses Refusal (holding name body) :=
  .bind (.ask fun _ only => .done only) fun _ => refuses.andFinally (.ask fun _ only => .done only)

theorem refuses_generate : Refuses Refusal generate := by
  have refusal (generated : Identifier.Generated) :
      Attempt.Only Refusal (Identifier.check generated) := by
    unfold Identifier.check
    split
    · exact .error (.inl (.database _))
    · exact .error (.inl (.database _))
    · split
      · split
        · exact .error (.inl (.database _))
        · exact .ok _
      · split
        · exact .error (.inl (.database _))
        · exact .error (.inr .noText)
  refine .bind (.request _) fun generated => ?_
  have only := refusal generated
  cases isId : Identifier.check generated with
  | ok id => exact .pure id
  | error failure =>
      rw [isId] at only
      exact refuses_resultOf only

/-! ## Arguments -/

section

open Attempt (Only)

theorem only_checkedName (value : Caller.Value) : Only Wrapped (checkedName value) := by
  unfold checkedName
  split
  · exact .error (.database _)
  · split
    · exact .error (.database _)
    · exact .ok _

theorem only_checkedQuery (query : Caller.Value) : Only Wrapped (checkedQuery query) :=
  Attempt.only_mapError (fun _ => .database _) _

theorem only_ofValue (id : Caller.Value) : Only Refusal (Identifier.ofValue id) := by
  unfold Identifier.ofValue
  split
  · exact .ok _
  · split
    · exact .error (.inl (.database _))
    · exact .error (.inr .noText)

theorem only_body (document : Caller.Value) : Only Refusal (body document) := by
  refine .bind (Attempt.only_mapError (fun _ => .inl (.database _)) _) fun normal => ?_
  split
  · split
    · exact .ok _
    · exact .bind (only_ofValue _) fun _ => .ok _
  · exact .ok _

theorem only_requested (checkTypes : Bool) (spec : Caller.Value) :
    Only Refusal (Constraints.requested checkTypes spec) :=
  Attempt.only_mapError (fun _ => .inl (.database _)) _

theorem only_cursorOf (collection query : Caller.Value) : Only Wrapped (cursorOf collection query) :=
  .bind (only_checkedName collection) fun _ => .bind (only_checkedQuery _) fun _ => .ok _

/-- A conflict is told by the names of types, which have text forms. -/
theorem wrapped_of_conflict {existing : List Constraint} {constraint : Constraint}
    {failure : Failure}
    (found : @Constraints.conflict? .json existing constraint = some failure) : Wrapped failure := by
  obtain ⟨field, rule⟩ := constraint
  cases rule with
  | hasType type =>
      obtain ⟨other, isOther, rfl⟩ := Option.map_eq_some_iff.mp found
      obtain ⟨⟨_, rule⟩, _, declares⟩ := List.exists_of_findSome?_eq_some isOther
      cases rule with
      | hasType existing =>
          obtain ⟨_, isShown⟩ := Option.ite_none_right_eq_some.mp declares
          cases isShown
          exact .database _
      | _ => cases declares
  | _ => cases found

/-- An action that starts with the name of a collection. -/
theorem refuses_named (collection : Caller.Value) {body : String → Action α}
    (widens : ∀ failure : Failure, failure.Wrapped → kind failure)
    (refuses : ∀ name, Refuses kind (body name)) : Refuses kind (named collection body) :=
  .bind (.ofExcept ((only_checkedName collection).mono widens)) refuses

end

/-! ## Procedures -/

/-- Whatever fails with a fault of the database is refused. -/
theorem Refuses.wider {action : Action α} (refuses : Refuses Wrapped action) :
    Refuses Refusal action := refuses.mono fun _ => .inl

/-- What is told about a change that has been made does not fail. -/
theorem refuses_telling {asked : Action Bool} (refuses : Refuses kind asked)
    (notice : Notice .json) :
    Refuses kind (do
      let changed ← asked
      if changed then tell notice
      return changed) := by
  refine .bind refuses fun changed => ?_
  split
  · exact .bind (refuses_tell _) fun _ => .pure _
  · exact .pure _

section

variable (name : String)

theorem refuses_create : Refuses Refusal (@Registry.create .json name) :=
  refuses_telling (refuses_store _) _

theorem refuses_drop : Refuses Refusal (@Registry.drop .json name) :=
  refuses_telling (refuses_store _) _

/-- Constraints are sorted by their names, which are texts. -/
theorem refuses_active : Refuses Wrapped (@Constraints.active .json name) :=
  .bind (refuses_reads trivial) fun _ => .bind (.ofExcept (.ok _)) fun _ => .pure _

/-- No constraint is without an answer for a JSON document. -/
theorem only_mapM_violations (document : Json) (checks : List Constraint) :
    Attempt.Only kind (checks.mapM fun check => do
      return (← Content.violation? .json document check).map fun violation =>
        (check, violation)) := by
  induction checks with
  | nil => exact .ok []
  | cons check rest ih =>
      rw [List.mapM_cons]
      exact .bind (.bind (.ok _) fun _ => .ok _) fun _ => .bind ih fun _ => .ok _

theorem refuses_enforce (document : Json) :
    Refuses Wrapped (@Constraints.enforce .json name document) := by
  have broken : Refuses Wrapped (@Constraints.broken .json name document) :=
    .bind (refuses_waitFor (refuses_active name)) fun checks =>
      .bind (.ofExcept (only_mapM_violations document checks)) fun _ => .pure _
  refine .bind (refuses_waitFor broken) fun found => ?_
  split
  · exact .pure ()
  · exact .bind (refuses_tell _) fun _ => .bind (.ofExcept (.ok _)) fun _ => .fail (.database _)

theorem refuses_insertLocked (fields : List (String × Json)) :
    Refuses Refusal (Documents.insertLocked name fields) := by
  have keeps (id : String) (document : Json) : Refuses Refusal (do
      waitFor (@Constraints.enforce .json name document)
      store (.put name id document)
      logDocuments "document.insert" name id
      return id : Action String) :=
    .bind (refuses_waitFor (refuses_enforce name document)).wider fun _ =>
      .bind (refuses_store _) fun _ => .bind (refuses_tell _) fun _ => .pure _
  unfold Documents.insertLocked
  split
  · exact keeps _ _
  · simp only [pure_bind]
    exact .bind refuses_generate fun id => keeps _ _

theorem refuses_insert (document : Caller.Value) :
    Refuses Refusal (Documents.insert name document) :=
  .bind (.ofExcept (only_body document)) fun fields =>
    refuses_holding name <| .bind (refuses_waitFor (refuses_create name)) fun _ =>
      refuses_waitFor (refuses_insertLocked name fields)

theorem refuses_save (document : Caller.Value) : Refuses Refusal (Documents.save name document) := by
  refine .bind (.ofExcept (only_body document)) fun fields =>
    refuses_holding name <| .bind (refuses_waitFor (refuses_create name)) fun _ => ?_
  have inserts := refuses_waitFor (refuses_insertLocked name fields)
  split
  · exact inserts
  · refine .bind (refuses_store _) fun found => ?_
    split
    · exact inserts
    · exact .bind (refuses_waitFor (refuses_enforce name _)).wider fun _ =>
        .bind (refuses_store _) fun _ => .bind (refuses_tell _) fun _ => .pure _

theorem refuses_scan (query : Json) : Refuses Wrapped (Documents.scan name query) := by
  refine .bind (refuses_reads trivial) fun found => ?_
  split
  · exact refuses_reads trivial
  · exact .pure []

theorem refuses_findById (id : String) : Refuses Wrapped (Documents.findById name id) := by
  refine .bind (refuses_reads trivial) fun found => ?_
  split
  · exact refuses_reads trivial
  · exact .pure none

theorem refuses_remove (query : Json) (limit : Storage.Limit) :
    Refuses Refusal (Documents.remove name query limit) := by
  refine refuses_holding name <| .bind (refuses_store _) fun found => ?_
  split
  · refine .bind (refuses_store _) fun removed => ?_
    split
    · exact .bind (refuses_tell _) fun _ => .pure _
    · exact .pure _
  · exact .pure 0

theorem refuses_removeById (id : String) : Refuses Refusal (Documents.removeById name id) := by
  refine refuses_holding name <| .bind (refuses_store _) fun found => ?_
  split
  · refine .bind (refuses_store _) fun removed => ?_
    split
    · exact .bind (refuses_tell _) fun _ => .pure _
    · exact .pure _
  · exact .pure 0

theorem refuses_add (spec : Caller.Value) : Refuses Refusal (@Constraints.add .json name spec) := by
  have only := only_requested true spec
  unfold Constraints.add
  split
  next failure requested =>
    rw [requested] at only
    exact refuses_resultOf (.error only.of_error)
  next => exact refuses_resultOf (.ok _)
  next constraints _ _ =>
    refine .bind (refuses_waitFor (refuses_active name)).wider fun existing => ?_
    split
    next failure conflict =>
      obtain ⟨constraint, _, found⟩ := List.exists_of_findSome?_eq_some conflict
      exact .fail (.inl (wrapped_of_conflict found))
    next =>
      exact .bind (refuses_store _) fun _ =>
        .bind (.forEach fun constraint => refuses_telling (refuses_store _) _) fun _ => .pure _

theorem refuses_removeConstraints (spec : Caller.Value) :
    Refuses Refusal (@Constraints.remove .json name spec) := by
  have only := only_requested false spec
  unfold Constraints.remove
  split
  next failure requested =>
    rw [requested] at only
    exact refuses_resultOf (.error only.of_error)
  next => exact refuses_resultOf (.ok _)
  next =>
    exact .bind (.forEach fun constraint => refuses_telling (refuses_store _) _) fun _ => .pure _

end

/-! ## Operations -/

/-- Documents are found with faults of the database only. -/
theorem refuses_cursor {α : Type} (collection query : Caller.Value) (next : List Json → Action α)
    (refuses : ∀ documents, Refuses Wrapped (next documents)) :
    Refuses Wrapped (cursor collection query >>= fun found => found.toList >>= next) := by
  rw [cursor_eq]
  exact .bind (.ofExcept (only_cursorOf collection query)) fun found =>
    .bind (refuses_scan found.collection found.query) refuses

/-- An operation whose identifier, if it takes one, is a text, and which changes nothing. -/
def Operation.Looks : Operation → Prop
  | .findOneById _ id => id.string?.isSome
  | operation => operation.changed? = none

theorem perform_refuses_looks {operation : Operation} (looks : operation.Looks) :
    Refuses Wrapped (perform operation) := by
  cases operation with
  | listCollections => exact refuses_reads trivial
  | collectionExists collection =>
      exact refuses_named collection (fun _ => id) fun _ => refuses_reads trivial
  | listConstraints collection => exact refuses_named collection (fun _ => id) refuses_active
  | find collection query =>
      have refuses := refuses_cursor collection query (α := List Json) _ fun documents =>
        .pure documents
      simpa only [perform, bind_pure] using refuses
  | findOne collection query => exact refuses_cursor collection query _ fun _ => .pure _
  | count collection query => exact refuses_cursor collection query _ fun _ => .pure _
  | findOneById collection id =>
      obtain ⟨text, isText⟩ := Option.isSome_iff_exists.mp looks
      refine refuses_named collection (fun _ wrapped => wrapped) fun name => ?_
      refine .bind (.ofExcept ?_) fun id => refuses_findById name id
      rw [Identifier.ofValue, isText]
      exact .ok text
  | createCollection | dropCollection | insert | save | remove | removeOne | removeOneById
  | addConstraint | removeConstraint => cases looks

/-- **Every operation of a database over files** fails with a refusal. -/
theorem perform_refuses (operation : Operation) : Refuses Refusal (perform operation) := by
  have named {β : Type} {body : String → Action β} (collection : Caller.Value)
      (refuses : ∀ name, Refuses Refusal (body name)) : Refuses Refusal (named collection body) :=
    refuses_named collection (fun _ => .inl) refuses
  cases operation with
  | listCollections | collectionExists | listConstraints | find | findOne | count =>
      exact Refuses.wider (perform_refuses_looks rfl)
  | findOneById collection id =>
      exact named collection fun name => .bind (.ofExcept (only_ofValue id)) fun id =>
        (refuses_findById name id).wider
  | createCollection collection =>
      exact named collection fun name => refuses_holding name (refuses_create name)
  | dropCollection collection =>
      exact named collection fun name => refuses_holding name (refuses_drop name)
  | insert collection document => exact named collection fun name => refuses_insert name document
  | save collection document => exact named collection fun name => refuses_save name document
  | remove collection query | removeOne collection query =>
      exact named collection fun name =>
        .bind (.ofExcept ((only_checkedQuery query).mono fun _ => .inl)) fun query =>
          refuses_remove name query _
  | removeOneById collection id =>
      exact named collection fun name => .bind (.ofExcept (only_ofValue id)) fun id =>
        refuses_removeById name id
  | addConstraint collection spec =>
      exact named collection fun name => refuses_holding name (refuses_add name spec)
  | removeConstraint collection spec =>
      exact named collection fun name => refuses_holding name (refuses_removeConstraints name spec)

/-! ## Over files -/

namespace Session

open Attempt (Only)

variable {session : Session} {store : FileStore} (isBackend : session.backend = .files store)
include isBackend

/-- Whatever the disk answers, every request of the database is refused as `Request.Refuses` says. -/
theorem meaning_refuses (request : Request .json) :
    (session.meaning request).Ends (fun _ _ => True) request.Refuses := by
  have gives (hold : Hold .json) :
      (giveFile hold session.backend).Ends (fun _ _ => True) (Only Refusal) := by
    rw [isBackend]
    obtain ⟨name, handle⟩ := hold
    cases handle with
    | some handle => exact FileLock.fails_release _ handle
    | none => exact .done (.ok _)
  cases request with
  | store op =>
      have refuses : (store.perform op).toProgram.Ends (fun _ _ => True)
          (Request.Refuses (.store op)) := by
        by_cases reads : op.Reads
        · exact Program.Ends.mono (store.fails_reads reads) fun _ only =>
            ⟨only.mono fun _ => .inl, fun _ => only⟩
        · exact Program.Ends.mono (store.fails_perform op) fun _ only =>
            ⟨only, fun reads' => absurd reads' reads⟩
      rw [meaning, isBackend]
      exact refuses
  | lock name =>
      have takes : (takeFile (show Content.json.Key from name) session.backend).Ends
          (fun _ _ => True) (Only Refusal) := by
        rw [isBackend]
        refine Program.Ends.bind (FileLock.fails_acquire _) fun taken only => .done ?_
        cases taken with
        | ok handle => exact .ok _
        | error failure => exact .error only.of_error
      refine .ask fun _ _ => takes.bind fun taken only => ?_
      cases taken with
      | ok hold => exact .done (.ok _)
      | error failure => exact .ask fun _ _ => .done (.error only.of_error)
  | unlock hold =>
      exact (gives hold).bind fun given only => .ask fun _ _ => .ask fun _ _ => .ask fun _ _ =>
        .done only
  | tell notice =>
      show (session.tell notice).FailsWith (fun _ _ => True) fun _ => False
      unfold tell
      split
      · exact .bind (.ofExcept (.ok _)) fun _ => Host.fails_log _ _
      · exact .pure ()
  | generate | giveWay => exact .ask fun _ _ => .done trivial

/-- **What an operation fails with**, whatever the disk answers: a fault of the database, or one of
the failures that nothing wraps. -/
theorem perform_fails (operation : Operation) : Fails Refusal (session.perform operation) :=
  Program.Ends.interpret (perform_refuses operation) (meaning_refuses isBackend)

/-- **What changes nothing fails with a fault of the database** and nothing else. -/
theorem perform_fails_looks {operation : Operation} (looks : operation.Looks) :
    Fails Wrapped (session.perform operation) :=
  Program.Ends.interpret (perform_refuses_looks looks) (meaning_refuses isBackend)

end Session

end Database

end DocStore
