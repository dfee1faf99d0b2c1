import DocStore.Proofs.Database.Guarded
import DocStore.Proofs.Database.Writes
/-!
# What lasts

What one operation leaves, a later one may take away, but not every one may.  A document stays as it
is until it is written again or an operation that removes documents comes (`stays_outcome`), and
saving or inserting a document puts its record where no other document has been (`Places`).  So an
insertion succeeds only where the identifier is not stored, and fails as a duplicate only where its
slot is taken (`insertion_cases`).

No operation fails for a lock once it is under way (`timely_outcome`).
-/

set_option autoImplicit false

namespace DocStore.Database

open Files (Named)

variable {keeper : Keeper} {generator : Nat → Identifier.Generated}

/-! ## Failures -/

/-- What does not fail for a lock that has not been obtained in time. -/
def Timely {α : Type} (result : Except Failure α) : Prop :=
  ∀ failure, result = .error failure → failure.kind? ≠ some .lockTimeout

section

variable {α β σ : Type}

theorem timely_ok (value : α) : Timely (.ok value) := fun _ fails => nomatch fails

theorem timely_error {failure : Failure} (other : failure.kind? ≠ some .lockTimeout) :
    Timely (.error failure : Except Failure α) := by
  intro failure' fails
  cases fails
  exact other

theorem Timely.settle {result : Except Failure β} {state : σ} {next : β → Except Failure α × σ}
    (timely : Timely result) (goesOn : ∀ value, Timely (next value).1) :
    Timely (settle result state next).1 := by
  cases result with
  | error failure => exact timely_error (timely failure rfl)
  | ok value => exact goesOn value

theorem Timely.bind {result : Except Failure β} {next : β → Except Failure α}
    (timely : Timely result) (goesOn : ∀ value, Timely (next value)) : Timely (result >>= next) := by
  cases result with
  | error failure => exact timely_error (timely failure rfl)
  | ok value => exact goesOn value

end

theorem timely_checkedName (collection : Caller.Value) : Timely (checkedName collection) := by
  unfold checkedName
  split
  · exact timely_error nofun
  · split
    · exact timely_error nofun
    · exact timely_ok _

theorem timely_body (document : Caller.Value) : Timely (body document) := by
  rcases body_cases document with ⟨_, failure, isBody, kind⟩ | ⟨_, fields, _, isBody⟩
  · rw [isBody]
    exact timely_error (by rw [kind]; decide)
  · rw [isBody]
    exact timely_ok _

theorem timely_ofValue (id : Caller.Value) : Timely (Identifier.ofValue id) := by
  unfold Identifier.ofValue
  split
  · exact timely_ok _
  · split <;> exact timely_error nofun

theorem timely_check (generated : Identifier.Generated) : Timely (Identifier.check generated) := by
  unfold Identifier.check
  split
  · exact timely_error nofun
  · exact timely_error nofun
  · split
    · split
      · exact timely_error nofun
      · exact timely_ok _
    · split <;> exact timely_error nofun

theorem timely_checkedQuery (query : Caller.Value) : Timely (checkedQuery query) := by
  unfold checkedQuery
  cases Caller.normalQuery query with
  | error misfit => exact timely_error nofun
  | ok form => exact timely_ok form

theorem timely_cursorOf (collection query : Caller.Value) : Timely (cursorOf collection query) :=
  (timely_checkedName collection).bind fun _ =>
    (timely_checkedQuery _).bind fun _ => timely_ok _

theorem kind?_taken (name id : String) : (keeper.taken name id).kind? = some .duplicateId := by
  have bare := congrArg Failure.kind? (keeper.taken_bare name id)
  cases isTaken : keeper.taken name id with
  | database error =>
      rw [isTaken] at bare
      exact bare
  | _ =>
      rw [isTaken] at bare
      cases bare

theorem timely_keep (name id : String) (record : Json) (cabinet : Cabinet) :
    Timely (keep keeper name id record cabinet).1 := by
  unfold keep
  split
  · exact timely_error nofun
  · split
    · exact timely_error (by rw [kind?_taken]; decide)
    · exact timely_ok _

theorem timely_overwrite (name id : String) (record : Json) (cabinet : Cabinet) :
    Timely (overwrite keeper name id record cabinet).1 := by
  unfold overwrite
  split
  · exact timely_error nofun
  · exact timely_ok _

theorem timely_recordOf (fields : List (String × Json)) (calls : Nat) :
    Timely (recordOf generator calls fields).1 := by
  unfold recordOf
  cases givenId? fields with
  | some id => exact timely_ok _
  | none =>
      have timely := timely_check (generator calls)
      cases checked : Identifier.check (generator calls) with
      | error failure => exact timely_error (timely failure checked)
      | ok id => exact timely_ok _

theorem timely_insertion (name : String) (fields : List (String × Json)) (state : Cabinet × Nat) :
    Timely (insertion keeper generator name fields state).1 :=
  insertion_induction (fun written => Timely written.1)
    (fun failure isFailure => timely_error (timely_recordOf fields state.2 failure isFailure))
    fun id record _ => timely_keep name id record state.1

theorem timely_saving (name : String) (fields : List (String × Json)) (state : Cabinet × Nat) :
    Timely (saving keeper generator name fields state).1 :=
  saving_induction (fun written => Timely written.1) (timely_insertion name fields state)
    fun id _ _ => timely_overwrite name id (.object fields) state.1

theorem timely_requested (checkTypes : Bool) (spec : Caller.Value) :
    Timely (Constraints.requested checkTypes spec) := by
  unfold Constraints.requested
  cases readSpec checkTypes spec with
  | error refusal => exact timely_error nofun
  | ok constraints => exact timely_ok constraints

theorem kind?_conflict? {constraints : List Constraint} {constraint : Constraint} {failure : Failure}
    (isFailure : @Constraints.conflict? .json constraints constraint = some failure) :
    failure.kind? = some .typeConflict := by
  unfold Constraints.conflict? at isFailure
  split at isFailure
  next type _ =>
    obtain ⟨other, isOther, rfl⟩ := Option.map_eq_some_iff.mp isFailure
    obtain ⟨existing, _, isOther⟩ := List.exists_of_findSome?_eq_some isOther
    obtain ⟨field, rule⟩ := existing
    cases rule with
    | hasType declared =>
        rw [Content.otherType?] at isOther
        split at isOther
        · cases isOther
          rfl
        · cases isOther
    | required | notNull => cases isOther
  next => cases isFailure

theorem timely_addition (name : String) (spec : Caller.Value) (cabinet : Cabinet) :
    Timely (addition keeper name spec cabinet).1 := by
  have timely := timely_requested true spec
  unfold addition
  split
  next isRequest => exact timely_error (timely _ isRequest)
  next => exact timely_ok _
  next =>
    split
    next isConflict =>
      obtain ⟨constraint, _, isFailure⟩ := List.exists_of_findSome?_eq_some isConflict
      exact timely_error (by rw [kind?_conflict? isFailure]; decide)
    next => exact timely_ok _

theorem timely_subtraction (name : String) (spec : Caller.Value) (cabinet : Cabinet) :
    Timely (subtraction keeper name spec cabinet).1 := by
  have timely := timely_requested false spec
  unfold subtraction
  split
  next isRequest => exact timely_error (timely _ isRequest)
  next => exact timely_ok _

/-- **No operation fails for a lock** once it is under way. -/
theorem timely_outcome (operation : Operation) (state : Cabinet × Nat) :
    Timely (outcome keeper generator operation state).1 := by
  cases operation with
  | listCollections => exact timely_ok _
  | collectionExists collection | createCollection collection | dropCollection collection
  | listConstraints collection => exact (timely_checkedName collection).settle fun _ => timely_ok _
  | insert collection document =>
      exact (timely_checkedName collection).settle fun name =>
        (timely_body document).settle fun fields => timely_insertion name fields _
  | save collection document =>
      exact (timely_checkedName collection).settle fun name =>
        (timely_body document).settle fun fields => timely_saving name fields _
  | find collection query | findOne collection query | count collection query =>
      exact (timely_cursorOf collection query).settle fun _ => timely_ok _
  | findOneById collection id | removeOneById collection id =>
      exact (timely_checkedName collection).settle fun _ =>
        (timely_ofValue id).settle fun _ => timely_ok _
  | remove collection query | removeOne collection query =>
      exact (timely_checkedName collection).settle fun _ =>
        (timely_checkedQuery query).settle fun _ => timely_ok _
  | addConstraint collection spec =>
      exact (timely_checkedName collection).settle fun name => timely_addition name spec _
  | removeConstraint collection spec =>
      exact (timely_checkedName collection).settle fun name => timely_subtraction name spec _

/-! ## Documents -/

/-- What may take a document away other than by writing it again. -/
def Operation.Removes : Operation → Prop
  | .dropCollection _ | .remove _ _ | .removeOne _ _ | .removeOneById _ _ => True
  | _ => False

/-- The document that an operation writes. -/
def Operation.document? : Operation → Option Caller.Value
  | .insert _ document | .save _ document => some document
  | _ => none

/-- A collection has a document under its identifier. -/
structure Has (slot : String → String) (cabinet : Cabinet) (name id : String) (record : Json) : Prop where
  found : (cabinet.held name).documents.lookup (slot id) = some record
  isId : FileStore.documentId? record = some id

/-- A write of a document is refused and changes nothing, or it puts the record of the document
where none has been or, if it may replace, in the place of the document of the same identifier. -/
inductive Places (keeper : Keeper) (document : Caller.Value) (generated : Identifier.Generated)
    (replaces : Bool) (name : String) (cabinet : Cabinet) : Except Failure String × Cabinet → Prop
  | refused (failure : Failure) :
      Places keeper document generated replaces name cabinet (.error failure, cabinet)
  | placed {isGiven : Bool} {id : String} {record : Json}
      (isRecord : Records document generated isGiven id record)
      (isId : FileStore.documentId? record = some id)
      (room : (cabinet.held name).documents.lookup (keeper.slot id) = none
        ∨ replaces = true ∧ isStored keeper name id cabinet = true) :
      Places keeper document generated replaces name cabinet
        (.ok id, cabinet.modify name fun drawer => drawer.putAt (keeper.slot id) record)

section

variable {document : Caller.Value} {name id : String} {cabinet : Cabinet} {replaces : Bool}

section

variable {generated : Identifier.Generated} {isGiven : Bool} {record : Json}
  (isRecord : Records document generated isGiven id record)
  (isId : FileStore.documentId? record = some id)
include isRecord isId

theorem places_keep : Places keeper document generated replaces name cabinet
    (keep keeper name id record cabinet) := by
  unfold keep
  split
  · exact .refused _
  · split
    · exact .refused _
    next isNone => exact .placed isRecord isId (.inl (Option.not_isSome_iff_eq_none.mp isNone))

theorem places_overwrite (stored : isStored keeper name id cabinet = true) :
    Places keeper document generated true name cabinet (overwrite keeper name id record cabinet) := by
  unfold overwrite
  split
  · exact .refused _
  · exact .placed isRecord isId (.inr ⟨rfl, stored⟩)

end

section

variable {fields : List (String × Json)} {calls : Nat}
  (isNormal : Caller.normalObject "Document" document = .ok (.object fields))
  (wellFormed : Json.WellFormed (.object fields))
  (noId : givenId? fields = none → idField ∉ fields.map Prod.fst)
include isNormal wellFormed noId

omit wellFormed in
/-- The record that a body becomes is the record of its document. -/
theorem exists_records_of_recordOf {record : Json}
    (isRecord : (recordOf generator calls fields).1 = .ok (id, record)) :
    ∃ isGiven, Records document (generator calls) isGiven id record := by
  unfold recordOf at isRecord
  cases given : givenId? fields with
  | some id =>
      rw [given] at isRecord
      cases isRecord
      exact ⟨true, .given isNormal (lookup_idField_of_given given)⟩
  | none =>
      rw [given] at isRecord
      dsimp only at isRecord
      cases checked : Identifier.check (generator calls) with
      | error failure =>
          rw [checked] at isRecord
          cases isRecord
      | ok generated =>
          rw [checked] at isRecord
          cases isRecord
          exact ⟨false, .generated isNormal (Lookup.lookup_eq_none_iff.mpr (noId given)) checked⟩

theorem places_insertion : Places keeper document (generator calls) replaces name cabinet
    ((insertion keeper generator name fields (cabinet, calls)).1,
      (insertion keeper generator name fields (cabinet, calls)).2.1) := by
  refine insertion_induction (Places keeper document (generator calls) replaces name cabinet)
    (fun failure _ => .refused failure) fun id record isRecord => ?_
  obtain ⟨isGiven, records⟩ := exists_records_of_recordOf isNormal noId isRecord
  exact places_keep records (of_recordOf wellFormed noId isRecord).2

theorem places_saving : Places keeper document (generator calls) true name cabinet
    ((saving keeper generator name fields (cabinet, calls)).1,
      (saving keeper generator name fields (cabinet, calls)).2.1) :=
  saving_induction (Places keeper document (generator calls) true name cabinet)
    (places_insertion isNormal wellFormed noId) fun _ given stored =>
      places_overwrite (.given isNormal (lookup_idField_of_given given)) (documentId?_object given)
        stored

end

/-- A document that is stored is found in its slot. -/
theorem exists_has_of_isStored (stored : isStored keeper name id cabinet = true) :
    ∃ record, Has keeper.slot cabinet name id record := by
  obtain ⟨record, found⟩ := Option.isSome_iff_exists.mp stored
  obtain ⟨found, isId⟩ := Option.filter_eq_some_iff.mp found
  exact ⟨record, found, beq_iff_eq.mp isId⟩

namespace Has

variable {wanted : String} {record : Json} (has : Has keeper.slot cabinet name id record)
include has

theorem there : (cabinet.drawer? name).isSome := by
  refine Option.isSome_iff_ne_none.mpr fun missing => ?_
  have found := has.found
  rw [Cabinet.held_of_missing missing] at found
  cases found

theorem opened (other : String) : Has keeper.slot (cabinet.opened other) name id record :=
  ⟨by rw [Cabinet.held_opened, has.found], has.isId⟩

theorem of_documents {after : Cabinet}
    (same : (after.held name).documents = (cabinet.held name).documents) :
    Has keeper.slot after name id record := ⟨by rw [same, has.found], has.isId⟩

/-- A document stays where it is while other documents are written. -/
theorem placed {generated : Identifier.Generated} {written : Except Failure String × Cabinet}
    (places : Places keeper document generated replaces wanted cabinet written)
    (other : ¬ (wanted = name ∧ written.1 = .ok id)) : Has keeper.slot written.2 name id record := by
  cases places with
  | refused failure => exact has
  | @placed _ id' record' _ _ room =>
      refine ⟨?_, has.isId⟩
      by_cases elsewhere : name = wanted
      · subst elsewhere
        have differs : id' ≠ id := fun same => other ⟨rfl, congrArg Except.ok same⟩
        rw [Cabinet.held_modify has.there, if_pos rfl, Drawer.putAt, Content.lookup_put, if_neg ?_,
          has.found]
        intro sameSlot
        rcases room with free | ⟨_, stored⟩
        · rw [← sameSlot, has.found] at free
          cases free
        · obtain ⟨stored, found, isId⟩ := exists_has_of_isStored stored
          rw [← sameSlot, has.found] at found
          obtain rfl := Option.some.inj found
          exact differs (Option.some.inj (isId.symm.trans has.isId))
      · rw [Cabinet.held, Cabinet.drawer?_modify, if_neg elsewhere]
        exact has.found

end Has

/-- What has been written is there. -/
theorem Places.has {generated : Identifier.Generated} {told : Except Failure String} {after : Cabinet}
    (places : Places keeper document generated replaces name cabinet (told, after))
    (there : (cabinet.drawer? name).isSome) (isTold : told = .ok id) :
    ∃ isGiven record, Records document generated isGiven id record
      ∧ Has keeper.slot after name id record := by
  cases places with
  | refused => cases isTold
  | @placed isGiven id' record isRecord isId _ =>
      obtain rfl := Except.ok.inj isTold
      refine ⟨isGiven, record, isRecord, ?_, isId⟩
      rw [Cabinet.held_modify there, if_pos rfl, Drawer.putAt, Content.lookup_put, if_pos rfl]

/-- What does not replace is written where nothing has been. -/
theorem Places.free {generated : Identifier.Generated} {told : Except Failure String} {after : Cabinet}
    (places : Places keeper document generated false name cabinet (told, after))
    (isTold : told = .ok id) : (cabinet.held name).documents.lookup (keeper.slot id) = none := by
  cases places with
  | refused => cases isTold
  | placed _ _ room =>
      obtain rfl := Except.ok.inj isTold
      exact room.resolve_right fun replaces => Bool.false_ne_true replaces.1

end

/-! ## Operations on documents -/

section

variable {state : Cabinet × Nat} {name id : String}

/-- What comes of a write, once the name and the body are settled and the collection exists. -/
def writing (write : String → List (String × Json) → Cabinet × Nat →
      Except Failure String × (Cabinet × Nat))
    (collection document : Caller.Value) (state : Cabinet × Nat) :
    Except Failure String × (Cabinet × Nat) :=
  settle (checkedName collection) state fun name => settle (body document) state fun fields =>
    write name fields (state.1.opened name, state.2)

/-- A write of a document that goes through all its checks is a write to its collection. -/
theorem writing_cases {replaces : Bool} {collection document : Caller.Value}
    {write : String → List (String × Json) → Cabinet × Nat →
      Except Failure String × (Cabinet × Nat)}
    (places : ∀ name fields, Caller.normalObject "Document" document = .ok (.object fields) →
      body document = .ok fields →
      Places keeper document (generator state.2) replaces name (state.1.opened name)
        ((write name fields (state.1.opened name, state.2)).1,
          (write name fields (state.1.opened name, state.2)).2.1)) :
    (∃ failure, writing write collection document state = (.error failure, state))
      ∨ ∃ name, checkedName collection = .ok name
        ∧ Places keeper document (generator state.2) replaces name (state.1.opened name)
          ((writing write collection document state).1,
            (writing write collection document state).2.1) := by
  unfold writing
  cases isName : checkedName collection with
  | error failure => exact .inl ⟨failure, rfl⟩
  | ok name =>
      rcases body_cases document with ⟨_, failure, isBody, _⟩ | ⟨_, fields, isNormal, isBody⟩
      · rw [isBody]
        exact .inl ⟨failure, rfl⟩
      · rw [isBody]
        exact .inr ⟨name, rfl, places name fields isNormal isBody⟩

theorem insert_cases {collection document : Caller.Value} (distinct : document.Distinct) :
    (∃ failure, outcome keeper generator (.insert collection document) state = (.error failure, state))
      ∨ ∃ name, checkedName collection = .ok name
        ∧ Places keeper document (generator state.2) false name (state.1.opened name)
          ((outcome keeper generator (.insert collection document) state).1,
            (outcome keeper generator (.insert collection document) state).2.1) :=
  writing_cases fun _ _ isNormal isBody => by
    obtain ⟨wellFormed, noId⟩ := of_body distinct isBody
    exact places_insertion isNormal wellFormed noId

theorem save_cases {collection document : Caller.Value} (distinct : document.Distinct) :
    (∃ failure, outcome keeper generator (.save collection document) state = (.error failure, state))
      ∨ ∃ name, checkedName collection = .ok name
        ∧ Places keeper document (generator state.2) true name (state.1.opened name)
          ((outcome keeper generator (.save collection document) state).1,
            (outcome keeper generator (.save collection document) state).2.1) :=
  writing_cases fun _ _ isNormal isBody => by
    obtain ⟨wellFormed, noId⟩ := of_body distinct isBody
    exact places_saving isNormal wellFormed noId

section

variable {operation : Operation} (distinct : operation.Distinct)
include distinct

/-- **A document stays as it is** until it is written again or something is removed. -/
theorem stays_outcome {record : Json} (has : Has keeper.slot state.1 name id record)
    (leaves : ¬ operation.Removes)
    (noWrite : ¬ operation.Wrote name id (outcome keeper generator operation state).1) :
    Has keeper.slot (outcome keeper generator operation state).2.1 name id record := by
  cases operation with
  | insert collection document =>
      rcases insert_cases distinct with ⟨failure, fails⟩ | ⟨other, isName, places⟩
      · rw [fails]
        exact has
      · exact (has.opened other).placed places fun wrote =>
          noWrite ⟨isName.trans (congrArg Except.ok wrote.1), wrote.2⟩
  | save collection document =>
      rcases save_cases distinct with ⟨failure, fails⟩ | ⟨other, isName, places⟩
      · rw [fails]
        exact has
      · exact (has.opened other).placed places fun wrote =>
          noWrite ⟨isName.trans (congrArg Except.ok wrote.1), wrote.2⟩
  | dropCollection | remove | removeOne | removeOneById => exact (leaves trivial).elim
  | listCollections | collectionExists | createCollection | find | findOne | findOneById | count
  | addConstraint | removeConstraint | listConstraints =>
      exact has.of_documents (documents_outcome_eq distinct nofun nofun nofun name)

/-- What has been written is there. -/
theorem exists_has_of_wrote
    (wrote : operation.Wrote name id (outcome keeper generator operation state).1) :
    ∃ document isGiven record, operation.document? = some document
      ∧ Records document (generator state.2) isGiven id record
      ∧ Has keeper.slot (outcome keeper generator operation state).2.1 name id record := by
  cases operation with
  | insert collection document =>
      obtain ⟨isName, isTold⟩ := wrote
      rcases insert_cases distinct with ⟨failure, fails⟩ | ⟨other, isOther, places⟩
      · rw [fails] at isTold
        cases isTold
      · obtain rfl := Except.ok.inj (isOther.symm.trans isName)
        obtain ⟨isGiven, record, isRecord, has⟩ := places.has Cabinet.there_opened isTold
        exact ⟨document, isGiven, record, rfl, isRecord, has⟩
  | save collection document =>
      obtain ⟨isName, isTold⟩ := wrote
      rcases save_cases distinct with ⟨failure, fails⟩ | ⟨other, isOther, places⟩
      · rw [fails] at isTold
        cases isTold
      · obtain rfl := Except.ok.inj (isOther.symm.trans isName)
        obtain ⟨isGiven, record, isRecord, has⟩ := places.has Cabinet.there_opened isTold
        exact ⟨document, isGiven, record, rfl, isRecord, has⟩
  | _ => exact wrote.elim

/-- What is stored under an identifier stays stored, perhaps as another document, until something is
removed. -/
theorem exists_has_outcome (has : ∃ record, Has keeper.slot state.1 name id record)
    (leaves : ¬ operation.Removes) :
    ∃ record, Has keeper.slot (outcome keeper generator operation state).2.1 name id record := by
  by_cases wrote : operation.Wrote name id (outcome keeper generator operation state).1
  · obtain ⟨_, _, record, _, _, has⟩ := exists_has_of_wrote distinct wrote
    exact ⟨record, has⟩
  · exact has.imp fun record has => stays_outcome distinct has leaves wrote

end

/-- An insertion succeeds only where its identifier is not stored. -/
theorem not_has_of_inserted {collection document : Caller.Value} (distinct : document.Distinct)
    (wrote : Operation.Wrote name id (.insert collection document)
      (outcome keeper generator (.insert collection document) state).1) (record : Json) :
    ¬ Has keeper.slot state.1 name id record := by
  intro has
  obtain ⟨isName, isTold⟩ := wrote
  rcases insert_cases distinct with ⟨failure, fails⟩ | ⟨other, isOther, places⟩
  · rw [fails] at isTold
    cases isTold
  · obtain rfl := Except.ok.inj (isOther.symm.trans isName)
    have free := places.free isTold
    rw [(has.opened other).found] at free
    cases free

/-- A document names its identifier. -/
def Names (document : Caller.Value) (id : String) : Prop :=
  ∃ fields, Caller.normalObject "Document" document = .ok (.object fields)
    ∧ fields.lookup idField = some (Json.string id)

/-- An insertion of a document with an identifier succeeds, or breaks constraints, or finds its slot
taken. -/
theorem insertion_cases {collection document : Caller.Value}
    (isName : checkedName collection = .ok name) (names : Names document id) :
    (outcome keeper generator (.insert collection document) state).1 = .ok id
      ∨ ∃ failure, (outcome keeper generator (.insert collection document) state).1 = .error failure
        ∧ (failure.kind? = some .violation
          ∨ failure.kind? = some .duplicateId
            ∧ ((state.1.held name).documents.lookup (keeper.slot id)).isSome) := by
  obtain ⟨fields, isNormal, isId⟩ := names
  have given : givenId? fields = some id := by
    rw [givenId?, isId]
    rfl
  have isBody : body document = .ok fields := by
    rcases body_cases document with ⟨unfit, _⟩ | ⟨_, fields', isNormal', isBody⟩
    · rcases unfit with isMisfit | ⟨isNormal', isId', noText⟩
      · cases isNormal.symm.trans isMisfit
      · cases isNormal.symm.trans isNormal'
        cases isId.symm.trans isId'
        cases noText
    · cases isNormal.symm.trans isNormal'
      exact isBody
  rw [outcome, isName, isBody]
  have isInsertion : (insertion keeper generator name fields (state.1.opened name, state.2)).1
      = (keep keeper name id (.object fields) (state.1.opened name)).1 := by
    rw [insertion, recordOf, given]
  show (insertion keeper generator name fields (state.1.opened name, state.2)).1 = .ok id ∨ ∃ failure,
    (insertion keeper generator name fields (state.1.opened name, state.2)).1 = .error failure ∧ _
  rw [isInsertion, keep, Cabinet.held_opened]
  split
  · exact .inr ⟨_, rfl, .inl rfl⟩
  · split
    next isTaken => exact .inr ⟨_, rfl, .inr ⟨kind?_taken name id, isTaken⟩⟩
    next => exact .inl rfl

end

end DocStore.Database
