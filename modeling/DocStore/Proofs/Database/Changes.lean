import DocStore.Proofs.Database.Histories
/-!
# What operations change

Whatever comes of an operation, what it does to a storage is one of a few changes of the collection
that it is about, and which ones depends on the kind of the operation alone (`changes_outcome`).
All that an operation leaves as it is follows from this: other collections (`drawer?_outcome`), the
constraints when it is about documents (`checks_outcome`), the documents when it is about
constraints (`documents_outcome_eq`), and which collections exist when it removes something
(`collections_outcome`).  What becomes of the documents of a collection is `rewritten_outcome`.
-/

set_option autoImplicit false

namespace DocStore

namespace Cabinet

variable {cabinet : Cabinet} {name : String} {change : Drawer → Drawer} {β : Type}

/-- A change keeps every part of the collections that it keeps in the one that it changes. -/
theorem part_modify (part : Drawer → β) (same : ∀ drawer, part (change drawer) = part drawer)
    (wanted : String) :
    part ((cabinet.modify name change).held wanted) = part (cabinet.held wanted) := by
  rw [held, held, drawer?_modify]
  split
  next isName =>
    subst isName
    cases cabinet.drawer? wanted with
    | none => rfl
    | some drawer => exact same drawer
  next => rfl

theorem documents_withoutFiles_sublist (files : List String) (wanted : String) :
    ((cabinet.modify name fun drawer => drawer.withoutFiles files).held wanted).documents.Sublist
      (cabinet.held wanted).documents := by
  rw [held, held, drawer?_modify]
  split
  next isName =>
    subst isName
    cases cabinet.drawer? wanted with
    | none => exact .refl _
    | some drawer => exact List.filter_sublist
  next => exact .refl _

theorem documents_withoutDrawer_sublist (wanted : String) :
    ((cabinet.withoutDrawer name).held wanted).documents.Sublist
      (cabinet.held wanted).documents := by
  rw [held, drawer?_withoutDrawer]
  split
  · exact List.nil_sublist _
  · exact .refl _

end Cabinet

namespace Database

/-! ## Kinds of operations -/

/-- What an operation is for. -/
inductive Operation.Kind where
  | reads
  | creates
  | drops
  | writes
  | removes
  | adds
  | subtracts
deriving DecidableEq

/-- What an operation is for. -/
def Operation.kind : Operation → Kind
  | .createCollection _ => .creates
  | .dropCollection _ => .drops
  | .insert _ _ | .save _ _ => .writes
  | .remove _ _ | .removeOne _ _ | .removeOneById _ _ => .removes
  | .addConstraint _ _ => .adds
  | .removeConstraint _ _ => .subtracts
  | _ => .reads

/-- An operation has written the document of an identifier: it is an insertion or saves, and it
tells the identifier. -/
def Operation.Wrote (name id : String) :
    (operation : Operation) → Except Failure operation.Result → Prop
  | .insert collection _, told | .save collection _, told =>
      checkedName collection = .ok name ∧ told = .ok id
  | _, _ => False

section

variable (keeper : Keeper) (name : String) (cabinet : Cabinet)

/-- **What an operation of a kind does** to a storage by what it does to one collection, when it has
written the documents of some identifiers. -/
inductive Change (wrote : String → Prop) : Operation.Kind → Cabinet → Prop where
  /-- Nothing. -/
  | kept {kind : Operation.Kind} (noWrite : ∀ id, ¬ wrote id) : Change wrote kind cabinet
  /-- The collection is created if it does not exist. -/
  | opened {kind : Operation.Kind} (noWrite : ∀ id, ¬ wrote id)
      (creates : kind = .creates ∨ kind = .writes) : Change wrote kind (cabinet.opened name)
  /-- The collection is dropped. -/
  | dropped (noWrite : ∀ id, ¬ wrote id) : Change wrote .drops (cabinet.withoutDrawer name)
  /-- A document that breaks nothing is written. -/
  | stored {id : String} {record : Json} (isWritten : ∀ other, wrote other ↔ other = id)
      (wellFormed : record.WellFormed) (isId : FileStore.documentId? record = some id)
      (allowed : violations record (cabinet.active name) = []) :
      Change wrote .writes
        ((cabinet.opened name).modify name fun drawer => drawer.putAt (keeper.slot id) record)
  /-- Documents are removed. -/
  | removed (noWrite : ∀ id, ¬ wrote id) (files : List String) :
      Change wrote .removes (cabinet.modify name fun drawer => drawer.withoutFiles files)
  /-- Constraints are added. -/
  | added (noWrite : ∀ id, ¬ wrote id) (constraints : List Constraint) :
      Change wrote .adds (inTurn (addCheck keeper name) constraints (cabinet.opened name)).2
  /-- Constraints are removed. -/
  | subtracted (noWrite : ∀ id, ¬ wrote id) (constraints : List Constraint) :
      Change wrote .subtracts (inTurn (dropCheck keeper name) constraints cabinet).2

end

section

variable {keeper : Keeper} {generator : Nat → Identifier.Generated} {name : String}
  {cabinet : Cabinet}

/-- A write that is refused has opened the collection, and one that is not has put its record. -/
theorem Stores.changes {told : Except Failure String} {after : Cabinet}
    (stores : Stores keeper name (cabinet.opened name) (told, after)) :
    Change keeper name cabinet (fun id => told = .ok id) .writes after := by
  cases stores with
  | refused failure => exact .opened (fun _ => nofun) (.inr rfl)
  | @stored id record wellFormed isId allowed =>
      rw [Cabinet.active_opened] at allowed
      refine .stored (fun other => ?_) wellFormed isId allowed
      rw [Except.ok.injEq, eq_comm]

theorem Operation.Changes.eq {operation : Operation} {other : String}
    (changes : operation.Changes name) (changes' : operation.Changes other) : name = other := by
  obtain ⟨collection, isCollection, isName⟩ := changes
  obtain ⟨collection', isCollection', isName'⟩ := changes'
  obtain rfl := Option.some.inj (isCollection.symm.trans isCollection')
  exact Except.ok.inj (isName.symm.trans isName')

/-- Only the collection that an operation is about is written. -/
theorem Operation.Wrote.changes {operation : Operation} {id : String}
    {told : Except Failure operation.Result} (wrote : operation.Wrote name id told) :
    operation.Changes name := by
  cases operation with
  | insert collection | save collection => exact ⟨collection, rfl, wrote.1⟩
  | _ => exact wrote.elim

/-- What fails writes nothing. -/
theorem Operation.not_wrote_error {operation : Operation} {id : String} (failure : Failure) :
    ¬ operation.Wrote name id (.error failure) := by
  cases operation with
  | insert | save => exact fun wrote => nomatch wrote.2
  | _ => exact not_false

variable {state : Cabinet × Nat}

/-- An operation does nothing if the name of its collection is refused. -/
theorem changes_named {operation : Operation} {collection : Caller.Value}
    (isCollection : operation.changed? = some collection)
    {next : String → Except Failure operation.Result × (Cabinet × Nat)}
    (isOutcome : outcome keeper generator operation state = settle (checkedName collection) state next)
    (changes : ∀ name, checkedName collection = .ok name →
      Change keeper name state.1 (fun id => operation.Wrote name id (next name).1) operation.kind
        (next name).2.1) :
    (outcome keeper generator operation state).2.1 = state.1
        ∧ (∀ name id, ¬ operation.Wrote name id (outcome keeper generator operation state).1)
      ∨ ∃ name, operation.Changes name ∧ Change keeper name state.1
          (fun id => operation.Wrote name id (outcome keeper generator operation state).1)
          operation.kind (outcome keeper generator operation state).2.1 := by
  rw [isOutcome]
  cases isName : checkedName collection with
  | error failure => exact .inl ⟨rfl, fun _ _ => Operation.not_wrote_error failure⟩
  | ok name => exact .inr ⟨name, ⟨collection, isCollection, isName⟩, changes name isName⟩

/-- What is read leaves everything as it is. -/
theorem outcome_reads {operation : Operation} (reads : operation.changed? = none) :
    (outcome keeper generator operation state).2 = state := by
  have settles {α β : Type} {result : Except Failure β}
      {next : β → Except Failure α × (Cabinet × Nat)}
      (same : ∀ value, result = .ok value → (next value).2 = state) :
      (settle result state next).2 = state :=
    settle_induction (fun later : Cabinet × Nat => later = state) rfl same
  cases operation with
  | listCollections => rfl
  | collectionExists | find | findOne | count | listConstraints => exact settles fun _ _ => rfl
  | findOneById => exact settles fun _ _ => settles fun _ _ => rfl
  | createCollection | dropCollection | insert | save | remove | removeOne | removeOneById
  | addConstraint | removeConstraint => cases reads

/-- A write that comes to something else than a failure has opened its collection. -/
theorem changes_of_body {document : Caller.Value}
    {next : List (String × Json) → Except Failure String × (Cabinet × Nat)}
    (stores : ∀ fields, body document = .ok fields →
      Stores keeper name (state.1.opened name) ((next fields).1, (next fields).2.1)) :
    Change keeper name state.1 (fun id => (settle (body document) state next).1 = .ok id) .writes
      (settle (body document) state next).2.1 := by
  cases isBody : body document with
  | error failure => exact .kept fun _ => nofun
  | ok fields => exact (stores fields isBody).changes

/-- A removal leaves out some files, or nothing when what it asks for is refused. -/
theorem changes_of_removal {β : Type} {wrote : String → Prop} (noWrite : ∀ id, ¬ wrote id)
    {result : Except Failure β} {next : β → Except Failure Nat × (Cabinet × Nat)}
    {files : β → List String}
    (leaves : ∀ value, (next value).2.1
      = state.1.modify name fun drawer => drawer.withoutFiles (files value)) :
    Change keeper name state.1 wrote .removes (settle result state next).2.1 := by
  cases result with
  | error failure => exact .kept noWrite
  | ok value => exact (leaves value).symm ▸ .removed noWrite (files value)

variable (keeper generator state) in
/-- **What an operation does** is nothing, or a change of its kind of the collection that it is
about. -/
theorem changes_outcome {operation : Operation} (distinct : operation.Distinct) :
    (outcome keeper generator operation state).2.1 = state.1
        ∧ (∀ name id, ¬ operation.Wrote name id (outcome keeper generator operation state).1)
      ∨ ∃ name, operation.Changes name ∧ Change keeper name state.1
          (fun id => operation.Wrote name id (outcome keeper generator operation state).1)
          operation.kind (outcome keeper generator operation state).2.1 := by
  have named {collection : Caller.Value} {name : String} {told : Except Failure String}
      (isName : checkedName collection = .ok name) :
      (fun id => checkedName collection = .ok name ∧ told = .ok id) = fun id => told = .ok id :=
    funext fun _ => propext (and_iff_right isName)
  cases operation with
  | listCollections | collectionExists | find | findOne | findOneById | count | listConstraints =>
      exact .inl ⟨congrArg Prod.fst (outcome_reads rfl), fun _ _ => not_false⟩
  | createCollection collection =>
      exact changes_named rfl rfl fun _ _ => .opened (fun _ => not_false) (.inl rfl)
  | dropCollection collection => exact changes_named rfl rfl fun _ _ => .dropped fun _ => not_false
  | insert collection document =>
      refine changes_named rfl rfl fun name isName => ?_
      refine (named isName).symm ▸ changes_of_body fun fields isBody => ?_
      obtain ⟨wellFormed, noId⟩ := of_body distinct isBody
      exact stores_insertion wellFormed noId
  | save collection document =>
      refine changes_named rfl rfl fun name isName => ?_
      refine (named isName).symm ▸ changes_of_body fun fields isBody => ?_
      obtain ⟨wellFormed, noId⟩ := of_body distinct isBody
      exact stores_saving wellFormed noId
  | remove | removeOne | removeOneById =>
      exact changes_named rfl rfl fun name _ => changes_of_removal (fun _ => not_false) fun _ => rfl
  | addConstraint collection spec =>
      refine changes_named rfl rfl fun name _ => ?_
      show Change keeper name state.1 _ .adds (addition keeper name spec state.1).2
      unfold addition
      split
      · exact .kept fun _ => not_false
      · exact .kept fun _ => not_false
      · split
        · exact .kept fun _ => not_false
        · exact .added (fun _ => not_false) _
  | removeConstraint collection spec =>
      refine changes_named rfl rfl fun name _ => ?_
      show Change keeper name state.1 _ .subtracts (subtraction keeper name spec state.1).2
      unfold subtraction
      split
      · exact .kept fun _ => not_false
      · exact .subtracted (fun _ => not_false) _

end

/-! ## What a change leaves as it is -/

section

variable {keeper : Keeper} {name : String} {cabinet after : Cabinet} {wrote : String → Prop}
  {kind : Operation.Kind} (change : Change keeper name cabinet wrote kind after)
include change

/-- What is kept by all changes of a collection is kept. -/
theorem Change.induction (holds : Cabinet → Prop) (start : holds cabinet)
    (opens : kind = .creates ∨ kind = .writes ∨ kind = .adds → holds (cabinet.opened name))
    (drops : kind = .drops → holds (cabinet.withoutDrawer name))
    (puts : ∀ id record, kind = .writes → holds (cabinet.opened name) →
      holds ((cabinet.opened name).modify name fun drawer => drawer.putAt (keeper.slot id) record))
    (removes : ∀ files, kind = .removes →
      holds (cabinet.modify name fun drawer => drawer.withoutFiles files))
    (adds : ∀ later key check, kind = .adds → holds later →
      holds (later.modify name fun drawer => drawer.putCheckAt key check))
    (subtracts : ∀ later key, kind = .subtracts → holds later →
      holds (later.modify name fun drawer => drawer.withoutCheck key)) : holds after := by
  cases change with
  | kept => exact start
  | opened _ creates => exact opens (creates.imp_right .inl)
  | dropped => exact drops rfl
  | @stored id record => exact puts id record rfl (opens (.inr (.inl rfl)))
  | removed _ files => exact removes files rfl
  | added _ constraints =>
      refine inTurn_induction holds (fun constraint later kept => ?_) constraints
        (opens (.inr (.inr rfl)))
      unfold addCheck
      split
      · exact kept
      · exact adds later _ constraint rfl kept
  | subtracted _ constraints =>
      exact inTurn_induction holds (fun constraint later kept => subtracts later _ rfl kept)
        constraints start

/-- Other collections stay as they are. -/
theorem Change.drawer?_eq {other : String} (elsewhere : other ≠ name) :
    after.drawer? other = cabinet.drawer? other := by
  have modifies (later : Cabinet) (change : Drawer → Drawer)
      (same : later.drawer? other = cabinet.drawer? other) :
      (later.modify name change).drawer? other = cabinet.drawer? other := by
    rw [Cabinet.drawer?_modify, if_neg elsewhere, same]
  refine change.induction (fun later => later.drawer? other = cabinet.drawer? other) rfl
    (fun _ => ?_) (fun _ => ?_) (fun _ _ _ => modifies _ _) (fun _ _ => modifies _ _ rfl)
    (fun _ _ _ _ => modifies _ _) fun _ _ _ => modifies _ _
  · rw [Cabinet.drawer?_opened, if_neg elsewhere]
  · rw [Cabinet.drawer?_withoutDrawer, if_neg elsewhere]

/-- Constraints stay as they are unless the change is about them, or drops the collection. -/
theorem Change.checks_eq (noDrop : kind ≠ .drops) (noAdd : kind ≠ .adds)
    (noSubtract : kind ≠ .subtracts) (other : String) :
    (after.held other).checks = (cabinet.held other).checks := by
  have modifies (later : Cabinet) (change : Drawer → Drawer)
      (keeps : ∀ drawer : Drawer, (change drawer).checks = drawer.checks)
      (same : (later.held other).checks = (cabinet.held other).checks) :
      ((later.modify name change).held other).checks = (cabinet.held other).checks :=
    (Cabinet.part_modify MemoryCollection.checks keeps other).trans same
  refine change.induction (fun later => (later.held other).checks = (cabinet.held other).checks) rfl
    (fun _ => ?_) (fun isDrop => absurd isDrop noDrop)
    (fun _ _ _ => modifies _ _ fun _ => rfl) (fun _ _ => modifies _ _ (fun _ => rfl) rfl)
    (fun _ _ _ isAdd => absurd isAdd noAdd) fun _ _ isSubtract => absurd isSubtract noSubtract
  rw [Cabinet.held_opened]

/-- Documents stay as they are unless the change is about them, or drops the collection. -/
theorem Change.documents_eq (noDrop : kind ≠ .drops) (noWrite : kind ≠ .writes)
    (noRemove : kind ≠ .removes) (other : String) :
    (after.held other).documents = (cabinet.held other).documents := by
  have modifies (later : Cabinet) (change : Drawer → Drawer)
      (keeps : ∀ drawer : Drawer, (change drawer).documents = drawer.documents)
      (same : (later.held other).documents = (cabinet.held other).documents) :
      ((later.modify name change).held other).documents = (cabinet.held other).documents :=
    (Cabinet.part_modify MemoryCollection.documents keeps other).trans same
  refine change.induction (fun later =>
      (later.held other).documents = (cabinet.held other).documents) rfl
    (fun _ => ?_) (fun isDrop => absurd isDrop noDrop)
    (fun _ _ isWrite => absurd isWrite noWrite) (fun _ isRemove => absurd isRemove noRemove)
    (fun _ _ _ _ => modifies _ _ fun _ => rfl) fun _ _ _ => modifies _ _ fun _ => rfl
  rw [Cabinet.held_opened]

/-- What removes documents or constraints neither creates nor drops a collection. -/
theorem Change.collections_eq (removes : kind = .removes ∨ kind = .subtracts) :
    after.collections.map Prod.fst = cabinet.collections.map Prod.fst := by
  have modifies (later : Cabinet) (change : Drawer → Drawer)
      (same : later.collections.map Prod.fst = cabinet.collections.map Prod.fst) :
      (later.modify name change).collections.map Prod.fst = cabinet.collections.map Prod.fst := by
    unfold Cabinet.modify
    split
    next there =>
      exact (Content.map_fst_put_of_mem _
        (List.mem_map_of_mem (Lookup.mem_of_lookup there))).trans same
    · exact same
  refine change.induction (fun later =>
      later.collections.map Prod.fst = cabinet.collections.map Prod.fst) rfl
    (fun opens => absurd removes ?_) (fun isDrop => absurd removes ?_)
    (fun _ _ isWrite => absurd removes ?_) (fun _ _ => modifies _ _ rfl)
    (fun _ _ _ isAdd => absurd removes ?_) fun _ _ _ => modifies _ _
  · rcases opens with rfl | rfl | rfl <;> decide
  · exact isDrop ▸ by decide
  · exact isWrite ▸ by decide
  · exact isAdd ▸ by decide

end

/-! ## What becomes of documents -/

/-- What becomes of the documents of a collection: one that breaks nothing is written into the slot
of its identifier, or none is written and some may be left out. -/
inductive Rewritten (keeper : Keeper) (name : String) (cabinet : Cabinet) (wrote : String → Prop) :
    List (String × Json) → Prop where
  | written {id : String} {record : Json} (isWritten : ∀ other, wrote other ↔ other = id)
      (wellFormed : record.WellFormed) (isId : FileStore.documentId? record = some id)
      (allowed : violations record (cabinet.active name) = []) :
      Rewritten keeper name cabinet wrote
        (Content.json.put (keeper.slot id) record (cabinet.held name).documents)
  | left {documents : List (String × Json)} (noWrite : ∀ id, ¬ wrote id)
      (within : documents.Sublist (cabinet.held name).documents) :
      Rewritten keeper name cabinet wrote documents

section

variable {keeper : Keeper} {generator : Nat → Identifier.Generated} {name : String}
  {cabinet : Cabinet}

theorem Change.rewritten {wrote : String → Prop} {kind : Operation.Kind} {after : Cabinet}
    (change : Change keeper name cabinet wrote kind after) :
    Rewritten keeper name cabinet wrote (after.held name).documents := by
  have same {kind : Operation.Kind} {after : Cabinet} (noWrite : ∀ id, ¬ wrote id)
      (change : Change keeper name cabinet wrote kind after) (noDrop : kind ≠ .drops)
      (noWrites : kind ≠ .writes) (noRemove : kind ≠ .removes) :
      Rewritten keeper name cabinet wrote (after.held name).documents :=
    .left noWrite (change.documents_eq noDrop noWrites noRemove name ▸ .refl _)
  cases change with
  | kept noWrite => exact .left noWrite (.refl _)
  | opened noWrite =>
      rw [Cabinet.held_opened]
      exact .left noWrite (.refl _)
  | dropped noWrite => exact .left noWrite (Cabinet.documents_withoutDrawer_sublist name)
  | stored isWritten wellFormed isId allowed =>
      rw [Cabinet.held_modify Cabinet.there_opened, if_pos rfl, Cabinet.held_opened]
      exact .written isWritten wellFormed isId allowed
  | removed noWrite files => exact .left noWrite (Cabinet.documents_withoutFiles_sublist files name)
  | added noWrite constraints =>
      exact same noWrite (.added noWrite constraints) (by decide) (by decide) (by decide)
  | subtracted noWrite constraints =>
      exact same noWrite (.subtracted noWrite constraints) (by decide) (by decide) (by decide)

variable {state : Cabinet × Nat} {operation : Operation} (distinct : operation.Distinct)
include distinct

variable (keeper generator state) in
/-- **What becomes of the documents** of any collection when an operation is done. -/
theorem rewritten_outcome (name : String) :
    Rewritten keeper name state.1
      (fun id => operation.Wrote name id (outcome keeper generator operation state).1)
      ((outcome keeper generator operation state).2.1.held name).documents := by
  rcases changes_outcome keeper generator state distinct with
    ⟨same, noWrite⟩ | ⟨changed, changes, change⟩
  · exact .left (noWrite name) (same ▸ .refl _)
  · by_cases elsewhere : name = changed
    · exact elsewhere ▸ change.rewritten
    · rw [Cabinet.held, change.drawer?_eq elsewhere, ← Cabinet.held]
      exact .left (fun id wrote => elsewhere (wrote.changes.eq changes)) (.refl _)

/-- Collections that an operation is not about stay as they are. -/
theorem drawer?_outcome {name : String} (elsewhere : ¬ operation.Changes name) :
    (outcome keeper generator operation state).2.1.drawer? name = state.1.drawer? name := by
  rcases changes_outcome keeper generator state distinct with
    ⟨same, _⟩ | ⟨changed, changes, change⟩
  · rw [same]
  · exact change.drawer?_eq fun same => elsewhere (same ▸ changes)

/-- Operations on documents leave all constraints as they are. -/
theorem checks_outcome (noDrop : operation.kind ≠ .drops) (noAdd : operation.kind ≠ .adds)
    (noSubtract : operation.kind ≠ .subtracts) (name : String) :
    ((outcome keeper generator operation state).2.1.held name).checks
      = (state.1.held name).checks := by
  rcases changes_outcome keeper generator state distinct with
    ⟨same, _⟩ | ⟨_, _, change⟩
  · rw [same]
  · exact change.checks_eq noDrop noAdd noSubtract name

/-- Operations on constraints leave all documents as they are. -/
theorem documents_outcome_eq (noDrop : operation.kind ≠ .drops) (noWrite : operation.kind ≠ .writes)
    (noRemove : operation.kind ≠ .removes) (name : String) :
    ((outcome keeper generator operation state).2.1.held name).documents
      = (state.1.held name).documents := by
  rcases changes_outcome keeper generator state distinct with
    ⟨same, _⟩ | ⟨_, _, change⟩
  · rw [same]
  · exact change.documents_eq noDrop noWrite noRemove name

/-- What removes documents or constraints neither creates nor drops a collection. -/
theorem collections_outcome (removes : operation.kind = .removes ∨ operation.kind = .subtracts) :
    (outcome keeper generator operation state).2.1.collections.map Prod.fst
      = state.1.collections.map Prod.fst := by
  rcases changes_outcome keeper generator state distinct with
    ⟨same, _⟩ | ⟨_, _, change⟩
  · rw [same]
  · exact change.collections_eq removes

/-- **A document after an operation** has just been written and breaks nothing that was in force, or
it was there before and has not been written. -/
theorem documents_outcome (slotted : state.1.Slotted keeper.slot) {name id : String}
    {entry : String × Json}
    (inside : entry ∈ ((outcome keeper generator operation state).2.1.held name).documents)
    (isId : FileStore.documentId? entry.2 = some id) :
    (operation.Wrote name id (outcome keeper generator operation state).1
        ∧ violations entry.2 (state.1.active name) = [])
      ∨ (¬ operation.Wrote name id (outcome keeper generator operation state).1
        ∧ entry ∈ (state.1.held name).documents) := by
  have rewritten := rewritten_outcome keeper generator state distinct name
  generalize ((outcome keeper generator operation state).2.1.held name).documents = documents
    at inside rewritten
  cases rewritten with
  | @written id' record isWritten _ isRecord allowed =>
      have inSlots := slotted.held name
      rcases (Content.mem_put_iff _ _ inSlots.documentsDistinct).mp inside with rfl | ⟨inside, other⟩
      · obtain rfl : id' = id := Option.some.inj (isRecord.symm.trans isId)
        exact .inl ⟨(isWritten id').mpr rfl, allowed⟩
      · refine .inr ⟨fun wrote => other ?_, inside⟩
        obtain ⟨_, id'', isId'', isPlace⟩ := inSlots.of_mem_documents inside
        obtain rfl : id'' = id := Option.some.inj (isId''.symm.trans isId)
        rw [isPlace, (isWritten id'').mp wrote]
  | left noWrite within => exact .inr ⟨noWrite id, within.subset inside⟩

end

end Database

end DocStore
