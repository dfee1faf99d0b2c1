import DocStore.Database.Operation
import DocStore.Proofs.Asking
import DocStore.Proofs.Caller.Normal
import DocStore.Proofs.Json.WellFormed
import DocStore.Proofs.Storage.Cabinet
/-!
# What the operations of the database ask

An operation that has checked its arguments asks only for what fits: names that collections may
have, documents under their own identifiers and constraints under their own names.  It takes at most
one lock, and holds it for all that it then asks.  `perform_locks` says so of the operations that
change a collection, which ask for this collection alone (`Locks`), and `perform_orderly` of every
operation (`Orderly`).
-/

set_option autoImplicit false

namespace DocStore.Database

open Files (Named)

/-- A request that fits, has nothing to do with locks and concerns collections of some names
only. -/
def Request.Fits (heads : Set String) : Request .json → Prop
  | .store op => op.Fits ∧ op.Within heads
  | .lock _ | .unlock _ => False
  | .tell _ | .generate | .giveWay => True

/-- An action that takes the lock of a collection for all that it asks, which concerns that
collection alone, unless its arguments are refused. -/
inductive Locks {α : Type} (collection : Caller.Value) : Action α → Prop
  | refused (failure : Failure) : Locks collection (Attempt.ofExcept (.error failure))
  | holding {name : String} {body : Action α} (isName : checkedName collection = .ok name)
      (asks : body.Asks (Request.Fits {name})) : Locks collection (Database.holding name body)

/-- An action that asks for what fits, perhaps while it holds the lock of a collection. -/
inductive Orderly {α : Type} : Action α → Prop
  | free {action : Action α} (asks : action.Asks (Request.Fits Set.univ)) : Orderly action
  | holding {name : String} {body : Action α} (named : Named name)
      (asks : body.Asks (Request.Fits {name})) : Orderly (Database.holding name body)

/-- The collection that an operation may change. -/
def Operation.changed? : Operation → Option Caller.Value
  | .createCollection collection | .dropCollection collection | .insert collection _
  | .save collection _ | .remove collection _ | .removeOne collection _
  | .removeOneById collection _ | .addConstraint collection _ | .removeConstraint collection _ =>
      some collection
  | _ => none

/-- An operation may change the collection of a name. -/
def Operation.Changes (name : String) (operation : Operation) : Prop :=
  ∃ collection, operation.changed? = some collection ∧ checkedName collection = .ok name

/-- The documents that callers pass to an operation have each key once. -/
def Operation.Distinct : Operation → Prop
  | .insert _ document | .save _ document => document.Distinct
  | _ => True

/-! ## Single requests -/

section

variable {α : Type} {heads : Set String}

theorem asks_store {op : Storage.Op .json} (fits : op.Fits) (within : op.Within heads) :
    (storeOn op).Asks (Request.Fits heads) := .ask ⟨fits, within⟩ fun _ => .done _

theorem asks_tell (notice : Notice .json) : (tell notice).Asks (Request.Fits heads) :=
  .ask trivial fun _ => .done _

theorem asks_giveWay : (@giveWay .json).Asks (Request.Fits heads) := .request trivial

theorem asks_waitFor {body : Action α} (asks : body.Asks (Request.Fits heads)) :
    (waitFor body).Asks (Request.Fits heads) := asks.andFinally asks_giveWay

theorem asks_resultOf (result : Except Failure α) :
    (@resultOf .json α result).Asks (Request.Fits heads) := asks_waitFor (.ofExcept result)

theorem asks_generate : generate.Asks (Request.Fits heads) := by
  refine .bind (.request trivial) fun generated => ?_
  cases Identifier.check generated with
  | ok id => exact .pure id
  | error failure => exact asks_resultOf _

end

/-! ## Arguments -/

theorem named_of_checkedName {value : Caller.Value} {name : String}
    (isName : checkedName value = .ok name) : Named name := by
  unfold checkedName at isName
  split at isName
  · cases isName
  next text =>
    split at isName
    · cases isName
    next noFault =>
      cases isName
      exact Files.named_of_nameFault? noFault

theorem string?_of_ofValue {value : Json} {id : String}
    (isId : Identifier.ofValue (Caller.ofJson value) = .ok id) : value.string? = some id := by
  have isText : (Caller.ofJson value).string? = some id := by
    unfold Identifier.ofValue at isId
    split at isId
    next text found =>
      cases isId
      exact found
    next => split at isId <;> cases isId
  cases value with
  | leaf scalar =>
      cases scalar <;> cases isText
      rfl
  | array _ | object _ =>
      rw [Caller.ofJson] at isText
      cases isText

/-- The body of a document is a JSON object, whose identifier is a text if it is there. -/
theorem of_body {document : Caller.Value} (distinct : document.Distinct)
    {fields : List (String × Json)} (isBody : body document = .ok fields) :
    Json.WellFormed (.object fields)
      ∧ (givenId? fields = none → idField ∉ fields.map Prod.fst) := by
  obtain ⟨normal, isNormal, isBody⟩ := Caller.bind_eq_ok isBody
  have isForm : Caller.normalObject "Document" document = .ok normal := by
    cases form : Caller.normalObject "Document" document with
    | error misfit =>
        rw [form] at isNormal
        cases isNormal
    | ok form' =>
        rw [form] at isNormal
        cases isNormal
        rfl
  have wellFormed := Caller.wellFormed_of_normalObject distinct isForm
  cases normal with
  | leaf _ | array _ =>
      cases isBody
      exact ⟨.object List.nodup_nil (fun _ member => nomatch member),
        fun _ member => nomatch member⟩
  | object inner =>
      dsimp only at isBody
      split at isBody
      next absent =>
        cases isBody
        exact ⟨wellFormed, fun _ => Lookup.lookup_eq_none_iff.mp absent⟩
      next id found =>
        obtain ⟨text, isText, isBody⟩ := Caller.bind_eq_ok isBody
        cases isBody
        refine ⟨wellFormed, fun noId => ?_⟩
        rw [givenId?, found, Option.bind_some, string?_of_ofValue isText] at noId
        cases noId

theorem documentId?_object {fields : List (String × Json)} {id : String}
    (isId : givenId? fields = some id) : FileStore.documentId? (.object fields) = some id := isId

/-- A document with a new identifier is a JSON object that has this identifier. -/
theorem wellFormed_withId (id : String) {fields : List (String × Json)}
    (wellFormed : Json.WellFormed (.object fields)) (noId : idField ∉ fields.map Prod.fst) :
    Json.WellFormed (.object (withId id fields)) := by
  obtain ⟨distinct, each⟩ := Json.wellFormed_object.mp wellFormed
  have reordered := Fields.inKeyOrder_perm ((idField, Json.string id) :: fields)
  refine .object ((reordered.map Prod.fst).nodup_iff.mpr (List.nodup_cons.mpr ⟨noId, distinct⟩))
    fun field member => ?_
  rcases List.mem_cons.mp (reordered.mem_iff.mp member) with rfl | inFields
  · exact .leaf trivial
  · exact each field inFields

theorem documentId?_withId (id : String) {fields : List (String × Json)}
    (distinct : (fields.map Prod.fst).Nodup) (noId : idField ∉ fields.map Prod.fst) :
    FileStore.documentId? (.object (withId id fields)) = some id := by
  have reordered := Fields.inKeyOrder_perm ((idField, Json.string id) :: fields)
  have found : (withId id fields).lookup idField = some (Json.string id) :=
    (Lookup.lookup_eq_of_perm reordered ((reordered.map Prod.fst).nodup_iff.mpr
      (List.nodup_cons.mpr ⟨noId, distinct⟩)) idField).trans (by simp)
  show (Tree.field? "_id" (.object (withId id fields))).bind Json.string? = some id
  rw [Tree.field?, show "_id" = idField from rfl, found]
  rfl

/-! ## Operations -/

section

variable {heads : Set String} {name : String} (named : Named name) (own : name ∈ heads)
include named own

theorem asks_active : (@Constraints.active .json name).Asks (Request.Fits heads) :=
  .bind (asks_store named own) fun _ => .bind (.ofExcept _) fun _ => .pure _

theorem asks_enforce (document : Json) :
    (@Constraints.enforce .json name document).Asks (Request.Fits heads) := by
  have broken : (@Constraints.broken .json name document).Asks (Request.Fits heads) :=
    .bind (asks_waitFor (asks_active named own)) fun _ => .bind (.ofExcept _) fun _ => .pure _
  refine .bind (asks_waitFor broken) fun found => ?_
  split
  · exact .pure ()
  · exact .bind (asks_tell _) fun _ => .bind (.ofExcept _) fun _ => .fail _

theorem asks_create : (@Registry.create .json name).Asks (Request.Fits heads) := by
  refine .bind (asks_store named own) fun created => ?_
  cases created with
  | false => exact .pure _
  | true => exact .bind (asks_tell _) fun _ => .pure _

theorem asks_drop : (@Registry.drop .json name).Asks (Request.Fits heads) := by
  refine .bind (asks_store named own) fun dropped => ?_
  cases dropped with
  | false => exact .pure _
  | true => exact .bind (asks_tell _) fun _ => .pure _

theorem asks_insertLocked {fields : List (String × Json)}
    (wellFormed : Json.WellFormed (.object fields))
    (noId : givenId? fields = none → idField ∉ fields.map Prod.fst) :
    (Documents.insertLocked name fields).Asks (Request.Fits heads) := by
  have keep {id : String} {document : Json} (isDocument : document.WellFormed)
      (isId : FileStore.documentId? document = some id) :
      (do
        waitFor (@Constraints.enforce .json name document)
        store (.put name id document)
        logDocuments "document.insert" name id
        return id : Action String).Asks (Request.Fits heads) :=
    .bind (asks_waitFor (asks_enforce named own document)) fun _ =>
      .bind (asks_store ⟨named, isDocument, isId⟩ own) fun _ => .bind (asks_tell _) fun _ => .pure _
  unfold Documents.insertLocked
  cases isGiven : givenId? fields with
  | some id => exact keep wellFormed (documentId?_object isGiven)
  | none =>
      have distinct := (Json.wellFormed_object.mp wellFormed).1
      have absent := noId isGiven
      simp only [pure_bind]
      exact .bind asks_generate fun id => keep (wellFormed_withId id wellFormed absent)
        (documentId?_withId id distinct absent)

theorem asks_scan (query : Json) : (Documents.scan name query).Asks (Request.Fits heads) := by
  refine .bind (asks_store named own) fun found => ?_
  cases found with
  | true => exact asks_store named own
  | false => exact .pure []

theorem asks_findById (id : String) :
    (Documents.findById name id).Asks (Request.Fits heads) := by
  refine .bind (asks_store named own) fun found => ?_
  cases found with
  | true => exact asks_store named own
  | false => exact .pure none

theorem asks_add (spec : Caller.Value) :
    (@Constraints.add .json name spec).Asks (Request.Fits heads) := by
  have addOne (constraint : Constraint) :
      (@Constraints.addOne .json name constraint).Asks (Request.Fits heads) := by
    refine .bind (asks_store ⟨named, rfl⟩ own) fun added => ?_
    cases added with
    | true => exact .bind (asks_tell _) fun _ => .pure true
    | false => exact .pure false
  unfold Constraints.add
  split
  · exact asks_resultOf _
  · exact asks_resultOf _
  · refine .bind (asks_waitFor (asks_active named own)) fun existing => ?_
    split
    · exact .fail _
    · exact .bind (asks_store named own) fun _ =>
        .bind (.forEach fun constraint _ => addOne constraint) fun _ => .pure _

theorem asks_remove (spec : Caller.Value) :
    (@Constraints.remove .json name spec).Asks (Request.Fits heads) := by
  have removeOne (constraint : Constraint) :
      (@Constraints.removeOne .json name constraint).Asks (Request.Fits heads) := by
    refine .bind (asks_store named own) fun removed => ?_
    cases removed with
    | true => exact .bind (asks_tell _) fun _ => .pure true
    | false => exact .pure false
  unfold Constraints.remove
  split
  · exact asks_resultOf _
  · exact asks_resultOf _
  · exact .bind (.forEach fun constraint _ => removeOne constraint) fun _ => .pure _

end

/-! ## Operations that change a collection -/

section

variable {α β : Type} {collection : Caller.Value}

/-- Arguments are settled before the lock is taken. -/
theorem Locks.ofExcept_bind {result : Except Failure α} {next : α → Action β}
    (goesOn : ∀ value, result = .ok value → Locks collection (next value)) :
    Locks collection (Attempt.ofExcept result >>= next) := by
  cases result with
  | ok value => exact goesOn value rfl
  | error failure => exact .refused failure

theorem Locks.orderly {action : Action α} (locks : Locks collection action) : Orderly action := by
  cases locks with
  | refused failure => exact .free (.ofExcept _)
  | holding isName asks => exact .holding (named_of_checkedName isName) asks

variable {name : String} (isName : checkedName collection = .ok name)
include isName

theorem locks_insert {document : Caller.Value} (distinct : document.Distinct) :
    Locks collection (Documents.insert name document) := by
  have named := named_of_checkedName isName
  refine .ofExcept_bind fun fields isBody => ?_
  obtain ⟨wellFormed, noId⟩ := of_body distinct isBody
  exact .holding isName (.bind (asks_waitFor (asks_create named (Set.mem_singleton name))) fun _ =>
    asks_waitFor (asks_insertLocked named (Set.mem_singleton name) wellFormed noId))

theorem locks_save {document : Caller.Value} (distinct : document.Distinct) :
    Locks collection (Documents.save name document) := by
  have named := named_of_checkedName isName
  have own := Set.mem_singleton name
  refine .ofExcept_bind fun fields isBody => ?_
  obtain ⟨wellFormed, noId⟩ := of_body distinct isBody
  have inserts := asks_waitFor (asks_insertLocked named own wellFormed noId)
  refine .holding isName (.bind (asks_waitFor (asks_create named own)) fun _ => ?_)
  cases isGiven : givenId? fields with
  | none => exact inserts
  | some id =>
      refine .bind (asks_store named own) fun found => ?_
      cases found with
      | none => exact inserts
      | some document =>
          exact .bind (asks_waitFor (asks_enforce named own _)) fun _ =>
            .bind (asks_store ⟨named, wellFormed, documentId?_object isGiven⟩ own) fun _ =>
              .bind (asks_tell _) fun _ => .pure id

theorem locks_remove (query : Json) {limit : Storage.Limit} (comparable : limit ≠ .incomparable) :
    Locks collection (Documents.remove name query limit) := by
  have named := named_of_checkedName isName
  have own := Set.mem_singleton name
  refine .holding isName (.bind (asks_store named own) fun found => ?_)
  cases found with
  | false => exact .pure 0
  | true =>
      refine .bind (asks_store ⟨named, comparable⟩ own) fun removed => ?_
      split
      · exact .bind (asks_tell _) fun _ => .pure _
      · exact .pure _

theorem locks_removeById (id : String) : Locks collection (Documents.removeById name id) := by
  have named := named_of_checkedName isName
  have own := Set.mem_singleton name
  refine .holding isName (.bind (asks_store named own) fun found => ?_)
  cases found with
  | false => exact .pure 0
  | true =>
      refine .bind (asks_store named own) fun removed => ?_
      cases removed with
      | true => exact .bind (asks_tell _) fun _ => .pure 1
      | false => exact .pure 0

end

/-- **An operation that may change a collection** takes its lock for all that it asks. -/
theorem perform_locks {operation : Operation} {collection : Caller.Value}
    (changes : operation.changed? = some collection) (distinct : operation.Distinct) :
    Locks collection (perform operation) := by
  have locks {α : Type} {body : String → Action α} (asks : ∀ name, Named name →
      (body name).Asks (Request.Fits {name})) :
      Locks collection (named collection fun name => holding name (body name)) :=
    .ofExcept_bind fun name isName => .holding isName (asks name (named_of_checkedName isName))
  cases operation with
  | listCollections | collectionExists | find | findOne | findOneById | count | listConstraints =>
      cases changes
  | createCollection _ =>
      cases changes
      exact locks fun name named => asks_create named (Set.mem_singleton name)
  | dropCollection _ =>
      cases changes
      exact locks fun name named => asks_drop named (Set.mem_singleton name)
  | insert _ document =>
      cases changes
      exact .ofExcept_bind fun name isName => locks_insert isName distinct
  | save _ document =>
      cases changes
      exact .ofExcept_bind fun name isName => locks_save isName distinct
  | remove _ query =>
      cases changes
      exact .ofExcept_bind fun name isName => .ofExcept_bind fun query _ =>
        locks_remove isName query (by simp)
  | removeOne _ query =>
      cases changes
      exact .ofExcept_bind fun name isName => .ofExcept_bind fun query _ =>
        locks_remove isName query (by simp)
  | removeOneById _ id =>
      cases changes
      exact .ofExcept_bind fun name isName => .ofExcept_bind fun id _ => locks_removeById isName id
  | addConstraint _ spec =>
      cases changes
      exact locks fun name named => asks_add named (Set.mem_singleton name) spec
  | removeConstraint _ spec =>
      cases changes
      exact locks fun name named => asks_remove named (Set.mem_singleton name) spec

/-! ## All operations -/

/-- The cursor of a query, which is settled by its arguments. -/
def cursorOf (collection query : Caller.Value) : Except Failure Cursor := do
  Cursor.find (← checkedName collection) query

theorem cursor_eq (collection query : Caller.Value) :
    cursor collection query = Attempt.ofExcept (cursorOf collection query) := by
  unfold cursor named cursorOf
  cases checkedName collection <;> rfl

theorem named_of_cursorOf {collection query : Caller.Value} {found : Cursor}
    (isCursor : cursorOf collection query = .ok found) : Named found.collection := by
  obtain ⟨name, isName, isCursor⟩ := Caller.bind_eq_ok isCursor
  obtain ⟨query', _, isCursor⟩ := Caller.bind_eq_ok isCursor
  cases isCursor
  exact named_of_checkedName isName

theorem asks_toList {cursor : Cursor} (named : Named cursor.collection) :
    cursor.toList.Asks (Request.Fits Set.univ) := asks_scan named (Set.mem_univ _) cursor.query

/-- What is known without asking is settled first. -/
theorem Orderly.ofExcept_bind {α β : Type} {result : Except Failure α} {next : α → Action β}
    (goesOn : ∀ value, result = .ok value → Orderly (next value)) :
    Orderly (Attempt.ofExcept result >>= next) := by
  cases result with
  | ok value => exact goesOn value rfl
  | error failure => exact .free (.fail failure)

/-- **Every operation of the database asks for what fits**, and takes at most one lock. -/
theorem perform_orderly {operation : Operation} (distinct : operation.Distinct) :
    Orderly (perform operation) := by
  cases operation with
  | listCollections => exact .free (asks_store trivial Set.mem_univ)
  | collectionExists collection =>
      exact .ofExcept_bind fun name isName =>
        .free (asks_store (named_of_checkedName isName) (Set.mem_univ name))
  | find collection query =>
      rw [perform, cursor_eq]
      exact .ofExcept_bind fun found isCursor => .free (asks_toList (named_of_cursorOf isCursor))
  | findOne collection query =>
      rw [perform, cursor_eq]
      exact .ofExcept_bind fun found isCursor =>
        .free (.bind (asks_toList (named_of_cursorOf isCursor)) fun _ => .pure _)
  | count collection query =>
      rw [perform, cursor_eq]
      exact .ofExcept_bind fun found isCursor =>
        .free (.bind (asks_toList (named_of_cursorOf isCursor)) fun _ => .pure _)
  | findOneById collection id =>
      exact .ofExcept_bind fun name isName => .ofExcept_bind fun id _ =>
        .free (asks_findById (named_of_checkedName isName) (Set.mem_univ name) id)
  | listConstraints collection =>
      exact .ofExcept_bind fun name isName =>
        .free (asks_active (named_of_checkedName isName) (Set.mem_univ name))
  | createCollection _ | dropCollection _ | insert _ _ | save _ _ | remove _ _ | removeOne _ _
  | removeOneById _ _ | addConstraint _ _ | removeConstraint _ _ =>
      exact (perform_locks rfl distinct).orderly

end DocStore.Database
