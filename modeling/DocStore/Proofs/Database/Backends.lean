import DocStore.Proofs.Database.Beginnings
import DocStore.Proofs.Files.Keys
import DocStore.Proofs.Storage.Rekeyed
/-!
# One database over two storages

The same operations come to the same over the storage in memory and over the storage in files, at
every step (`Session.same_outcomes`): the same results, or failures with the same fault.  Documents
are the same up to likeness, and lists of them in any order.

What the storage in files keeps is at every moment what the storage in memory keeps, put into other
slots (`Cabinet.rekey`).  `agrees_outcome` is the step: the outcomes agree, and the states stay so.
It needs that the slots tell the keys in use apart, and that an operation that looks for one
document finds at most one, because the storages give documents in different orders.
-/

set_option autoImplicit false

namespace DocStore.Database

open Files (Apart keyName)
open Host (Machine)

/-! ## Sameness -/

/-- Outcomes that are the same, but for what a lower layer gave as the reason of a failure. -/
inductive Same {α : Type} (related : α → α → Prop) : Except Failure α → Except Failure α → Prop where
  | ok {value value' : α} (same : related value value') : Same related (.ok value) (.ok value')
  | error {failure failure' : Failure} (same : failure.bare = failure'.bare) :
      Same related (.error failure) (.error failure')

/-- The same documents, in any order and up to likeness. -/
def SameDocuments (documents documents' : List Json) : Prop :=
  ∃ reordered : List Json, reordered.Perm documents ∧ List.Forall₂ Json.Alike reordered documents'

/-- Results that are the same: documents up to likeness, and lists of them in any order. -/
def Operation.SameResult : (operation : Operation) → operation.Result → operation.Result → Prop
  | .find _ _, documents, documents' => SameDocuments documents documents'
  | .findOne _ _, found, found' | .findOneById _ _, found, found' =>
      Option.Rel Json.Alike found found'
  | .listCollections, names, names' => names = names'
  | .listConstraints _, constraints, constraints' => constraints = constraints'
  | .insert _ _, id, id' | .save _ _, id, id' => id = id'
  | .count _ _, size, size' | .remove _ _, size, size' | .removeOne _ _, size, size'
  | .removeOneById _ _, size, size' => size = size'
  | .collectionExists _, told, told' | .createCollection _, told, told'
  | .dropCollection _, told, told' | .addConstraint _ _, told, told'
  | .removeConstraint _ _, told, told' => told = told'

/-- The same comes of something over the storage in memory and over the storage in files, and what
they keep then is the same, under some keys. -/
structure Agrees (keys : Set String) {α : Type} (related : α → α → Prop)
    (first second : Except Failure α × (Cabinet × Nat)) : Prop where
  outcome : Same related first.1 second.1
  within : first.2.1.Within keys
  state : second.2 = (first.2.1.rekey keyName, first.2.2)

section

variable {α β : Type} {keys : Set String} {related : α → α → Prop} {cabinet : Cabinet} {calls : Nat}
  (within : cabinet.Within keys)
include within

theorem Agrees.settle {result : Except Failure β}
    {next next' : β → Except Failure α × (Cabinet × Nat)}
    (goesOn : ∀ value, result = .ok value → Agrees keys related (next value) (next' value)) :
    Agrees keys related (settle result (cabinet, calls) next)
      (settle result (cabinet.rekey keyName, calls) next') := by
  cases result with
  | error failure => exact ⟨.error rfl, within, rfl⟩
  | ok value => exact goesOn value rfl

/-- What is only read leaves both states as they are. -/
theorem Agrees.read {value value' : α} (same : related value value') :
    Agrees keys related (.ok value, (cabinet, calls)) (.ok value', (cabinet.rekey keyName, calls)) :=
  ⟨.ok same, within, rfl⟩

end

/-! ## Writing -/

section

variable (store : FileStore) {keys : Set String} (apart : Set.InjOn keyName keys)
  {cabinet : Cabinet} {calls : Nat} (within : cabinet.Within keys) (name : String)
include apart within

theorem lookup_rekey {id : String} (inKeys : id ∈ keys) :
    ((cabinet.rekey keyName).held name).documents.lookup (keyName id)
      = (cabinet.held name).documents.lookup id := by
  rw [Cabinet.held_rekey]
  exact Content.lookup_rekey apart inKeys (within name).documents

theorem modify_putAt_rekey {id : String} (inKeys : id ∈ keys) (record : Json) :
    (cabinet.rekey keyName).modify name (fun drawer => drawer.putAt (keyName id) record)
      = (cabinet.modify name fun drawer => drawer.putAt id record).rekey keyName :=
  (Cabinet.modify_rekey (Drawer.rekey_putAt (within name) apart inKeys record)).symm

theorem agrees_keep {id : String} (inKeys : id ∈ keys) (record : Json) :
    Agrees keys Eq
      ((keep .memory name id record cabinet).1, ((keep .memory name id record cabinet).2, calls))
      ((keep (.files store) name id record (cabinet.rekey keyName)).1,
        ((keep (.files store) name id record (cabinet.rekey keyName)).2, calls)) := by
  have found : ((cabinet.rekey keyName).held name).documents.lookup ((Keeper.files store).slot id)
      = (cabinet.held name).documents.lookup (Keeper.memory.slot id) :=
    lookup_rekey apart within name inKeys
  rw [keep, keep, refusal, refusal, Cabinet.active_rekey, found]
  split
  · exact ⟨.error rfl, within, rfl⟩
  · split
    · exact ⟨.error rfl, within, rfl⟩
    · exact ⟨.ok rfl, within.modify fun inside => inside.putAt inKeys record,
        congrArg (·, calls) (modify_putAt_rekey apart within name inKeys record)⟩

theorem agrees_overwrite {id : String} (inKeys : id ∈ keys) (record : Json) :
    Agrees keys Eq
      ((overwrite .memory name id record cabinet).1,
        ((overwrite .memory name id record cabinet).2, calls))
      ((overwrite (.files store) name id record (cabinet.rekey keyName)).1,
        ((overwrite (.files store) name id record (cabinet.rekey keyName)).2, calls)) := by
  rw [overwrite, overwrite, refusal, refusal, Cabinet.active_rekey]
  split
  · exact ⟨.error rfl, within, rfl⟩
  · exact ⟨.ok rfl, within.modify fun inside => inside.putAt inKeys record,
      congrArg (·, calls) (modify_putAt_rekey apart within name inKeys record)⟩

variable {generator : Nat → Identifier.Generated} {fields : List (String × Json)}

theorem agrees_insertion
    (inKeys : ∀ id record, (recordOf generator calls fields).1 = .ok (id, record) → id ∈ keys) :
    Agrees keys Eq (insertion .memory generator name fields (cabinet, calls))
      (insertion (.files store) generator name fields (cabinet.rekey keyName, calls)) := by
  rw [insertion, insertion]
  cases isRecord : recordOf generator calls fields with
  | mk result calls' =>
      cases result with
      | error failure => exact ⟨.error rfl, within, rfl⟩
      | ok found =>
          exact agrees_keep store apart within name
            (inKeys found.1 found.2 (congrArg Prod.fst isRecord)) found.2

theorem agrees_saving (given : ∀ id, givenId? fields = some id → id ∈ keys)
    (inKeys : ∀ id record, (recordOf generator calls fields).1 = .ok (id, record) → id ∈ keys) :
    Agrees keys Eq (saving .memory generator name fields (cabinet, calls))
      (saving (.files store) generator name fields (cabinet.rekey keyName, calls)) := by
  have inserts := agrees_insertion store apart within name inKeys
  rw [saving, saving]
  cases isGiven : givenId? fields with
  | none => exact inserts
  | some id =>
      have stored : isStored (.files store) name id (cabinet.rekey keyName)
          = isStored .memory name id cabinet :=
        congrArg (fun found : Option Json => (found.filter fun document =>
          FileStore.documentId? document == some id).isSome)
          (lookup_rekey apart within name (given id isGiven))
      dsimp only
      rw [stored]
      split
      · exact agrees_overwrite store apart within name (given id isGiven) _
      · exact inserts

end

/-! ## Reading -/

section

/-- Documents and what they settle to are alike one by one, and the same ones contain a query. -/
theorem alike_settled_filter {documents : List Json}
    (wellFormed : ∀ document ∈ documents, document.WellFormed) (query : Json) :
    List.Forall₂ Json.Alike (documents.filter fun document => Json.contains document query)
      ((documents.map (Json.settled .document)).filter fun document =>
        Json.contains document query) := by
  have sameOnes : (documents.map (Json.settled .document)).filter
        (fun document => Json.contains document query)
      = (documents.filter fun document => Json.contains document query).map
          (Json.settled .document) := by
    rw [List.filter_map]
    refine congrArg _ (List.filter_congr fun document member => ?_)
    exact Json.contains_settled .document (wellFormed document member) query
  rw [sameOnes, List.forall₂_map_right_iff, List.forall₂_same]
  intro document member
  exact Json.alike_settled .document (wellFormed document (List.mem_of_mem_filter member))

variable (store : FileStore) {cabinet : Cabinet}
  (slotted : cabinet.Slotted Keeper.memory.slot) (name : String)

theorem order_files_perm (cabinet : Cabinet) (name : String) :
    ((Keeper.files store).order ((cabinet.rekey keyName).held name)).Perm
      (Content.rekey keyName (cabinet.held name).documents) := by
  rw [Cabinet.held_rekey]
  exact (Keeper.files store).order_perm _

include slotted

/-- Both storages give the same documents for a query. -/
theorem sameDocuments_listing (query : Json) :
    SameDocuments
      ((listing .memory name cabinet).filter fun document => Json.contains document query)
      ((listing (.files store) name (cabinet.rekey keyName)).filter fun document =>
        Json.contains document query) := by
  have reordered := (order_files_perm store cabinet name).map Prod.snd
  rw [Content.map_snd_rekey] at reordered
  refine ⟨_, reordered.filter fun document => Json.contains document query, ?_⟩
  have files : listing (.files store) name (cabinet.rekey keyName)
      = (((Keeper.files store).order ((cabinet.rekey keyName).held name)).map Prod.snd).map
          (Json.settled .document) := by
    rw [List.map_map]
    rfl
  rw [files]
  refine alike_settled_filter (fun document member => ?_) query
  obtain ⟨entry, inside, rfl⟩ := List.mem_map.mp (reordered.mem_iff.mp member)
  exact ((slotted.held name).of_mem_documents inside).1

theorem rel_found? {keys : Set String} (apart : Set.InjOn keyName keys)
    (within : cabinet.Within keys) {id : String} (inKeys : id ∈ keys) :
    Option.Rel Json.Alike (found? .memory name id cabinet)
      (found? (.files store) name id (cabinet.rekey keyName)) := by
  have found : ((cabinet.rekey keyName).held name).documents.lookup ((Keeper.files store).slot id)
      = (cabinet.held name).documents.lookup (Keeper.memory.slot id) :=
    lookup_rekey apart within name inKeys
  rw [found?, found?, found]
  cases there : ((cabinet.held name).documents.lookup (Keeper.memory.slot id)).filter
      fun document => FileStore.documentId? document == some id with
  | none => exact .none
  | some document =>
      have inside := (Option.filter_eq_some_iff.mp there).1
      exact .some (Json.alike_settled .document ((slotted.held name).documents _ _ inside).1)

end

theorem SameDocuments.length_eq {documents documents' : List Json}
    (same : SameDocuments documents documents') : documents.length = documents'.length := by
  obtain ⟨reordered, perm, alike⟩ := same
  exact perm.length_eq.symm.trans alike.length_eq

/-- Of at most one document, the first ones are the same. -/
theorem SameDocuments.head? {documents documents' : List Json}
    (same : SameDocuments documents documents') (single : documents.length ≤ 1) :
    Option.Rel Json.Alike documents.head? documents'.head? := by
  obtain ⟨reordered, perm, alike⟩ := same
  match documents, single with
  | [], _ =>
      obtain rfl := perm.eq_nil
      cases alike
      exact .none
  | [document], _ =>
      obtain rfl := List.perm_singleton.mp perm
      cases alike with
      | cons here _ => exact .some here

/-! ## Removing -/

theorem withoutFiles_of_perm {files files' : List String} (perm : files.Perm files')
    (drawer : Drawer) : drawer.withoutFiles files = drawer.withoutFiles files' := by
  refine congrArg (fun documents => { drawer with documents }) ?_
  exact List.filter_congr fun entry _ => by rw [perm.contains_eq]

/-- A removal that the limit does not cut short removes all that contain the query. -/
theorem start_eq_self {β : Type} {limit : Storage.Limit} {list : List β}
    (enough : limit = .none ∨ limit = .upTo 1 ∧ list.length ≤ 1) : limit.start 0 list = list := by
  rcases enough with rfl | ⟨rfl, single⟩
  · rfl
  · exact List.take_of_length_le single

theorem agrees_removal (store : FileStore) {keys : Set String} (apart : Set.InjOn keyName keys)
    {cabinet : Cabinet} {calls : Nat} (within : cabinet.Within keys) (name : String)
    (query : Json) {limit : Storage.Limit}
    (enough : limit = .none ∨ limit = .upTo 1
      ∧ ((listing .memory name cabinet).filter fun document =>
          Json.contains document query).length ≤ 1) :
    Agrees keys Eq (removal .memory name query limit (cabinet, calls))
      (removal (.files store) name query limit (cabinet.rekey keyName, calls)) := by
  let isGone (entry : String × Json) : Bool := Json.contains entry.2 query
  have size : ((cabinet.held name).documents.filter isGone).length
      = ((listing .memory name cabinet).filter fun document =>
          Json.contains document query).length := by
    show _ = (((cabinet.held name).documents.map Prod.snd).filter _).length
    rw [List.filter_map, List.length_map]
    rfl
  have sorted := (order_files_perm store cabinet name).filter isGone
  have rekeyed : (Content.rekey keyName (cabinet.held name).documents).filter isGone
      = Content.rekey keyName ((cabinet.held name).documents.filter isGone) := by
    rw [Content.rekey, List.filter_map]
    rfl
  rw [rekeyed] at sorted
  rw [← size] at enough
  have inMemory : gone .memory name query limit cabinet
      = (cabinet.held name).documents.filter isGone := start_eq_self enough
  have inFiles : gone (.files store) name query limit (cabinet.rekey keyName)
      = ((Keeper.files store).order ((cabinet.rekey keyName).held name)).filter isGone := by
    refine start_eq_self (enough.imp_right fun limited => ⟨limited.1, ?_⟩)
    rw [sorted.length_eq, Content.rekey, List.length_map]
    exact limited.2
  have slots : ((gone (.files store) name query limit (cabinet.rekey keyName)).map Prod.fst).Perm
      (((gone .memory name query limit cabinet).map Prod.fst).map keyName) := by
    rw [inFiles, inMemory]
    refine (sorted.map Prod.fst).trans (.of_eq ?_)
    rw [Content.rekey, List.map_map, List.map_map]
    rfl
  have inKeys : ∀ key ∈ (gone .memory name query limit cabinet).map Prod.fst, key ∈ keys := by
    intro key member
    rw [inMemory] at member
    obtain ⟨entry, inside, rfl⟩ := List.mem_map.mp member
    exact (within name).documents entry (List.mem_of_mem_filter inside)
  refine ⟨.ok ?_, within.modify fun inside => inside.withoutFiles _, Prod.ext ?_ rfl⟩
  · have lengths := slots.length_eq
    simpa only [List.length_map] using lengths.symm
  · refine (Cabinet.modify_rekey ?_).symm
    rw [withoutFiles_of_perm slots]
    exact Drawer.rekey_withoutFiles (within name) apart inKeys

/-! ## Constraints -/

section

variable (store : FileStore) {keys : Set String} (apart : Set.InjOn keyName keys)
  {cabinet : Cabinet} {calls : Nat} (within : cabinet.Within keys) (name : String)

/-- A change of constraints that corresponds in both storages. -/
def Corresponds (keys : Set String) (step step' : Constraint → Cabinet → Bool × Cabinet) : Prop :=
  ∀ (constraint : Constraint) (cabinet : Cabinet), constraint.name ∈ keys → cabinet.Within keys →
    (step constraint cabinet).2.Within keys
      ∧ step' constraint (cabinet.rekey keyName)
        = ((step constraint cabinet).1, (step constraint cabinet).2.rekey keyName)

theorem Corresponds.inTurn {step step' : Constraint → Cabinet → Bool × Cabinet}
    (corresponds : Corresponds keys step step') {constraints : List Constraint}
    (inKeys : ∀ constraint ∈ constraints, constraint.name ∈ keys) (within : cabinet.Within keys) :
    (inTurn step constraints cabinet).2.Within keys
      ∧ inTurn step' constraints (cabinet.rekey keyName)
        = ((inTurn step constraints cabinet).1,
            (inTurn step constraints cabinet).2.rekey keyName) := by
  induction constraints generalizing cabinet with
  | nil => exact ⟨within, rfl⟩
  | cons head rest ih =>
      obtain ⟨goesOn, first⟩ := corresponds head cabinet (inKeys head List.mem_cons_self) within
      obtain ⟨ends, others⟩ := ih (fun other member => inKeys other (List.mem_cons_of_mem _ member))
        goesOn
      refine ⟨ends, ?_⟩
      rw [Database.inTurn, first]
      dsimp only
      rw [others]
      rfl

include apart

theorem lookup_check_rekey {constraint : Constraint} (inKeys : constraint.name ∈ keys)
    (within : cabinet.Within keys) :
    ((cabinet.rekey keyName).held name).checks.lookup (keyName constraint.name)
      = (cabinet.held name).checks.lookup constraint.name := by
  rw [Cabinet.held_rekey]
  exact Content.lookup_rekey apart inKeys (within name).checks

theorem corresponds_addCheck :
    Corresponds keys (addCheck .memory name) (addCheck (.files store) name) := by
  intro constraint cabinet inKeys within
  have found : ((cabinet.rekey keyName).held name).checks.lookup
      ((Keeper.files store).slot constraint.name)
        = (cabinet.held name).checks.lookup (Keeper.memory.slot constraint.name) :=
    lookup_check_rekey apart name inKeys within
  rw [addCheck, addCheck, found]
  split
  · exact ⟨within, rfl⟩
  · refine ⟨within.modify fun inside => inside.putCheckAt inKeys constraint, ?_⟩
    exact Prod.ext rfl
      (Cabinet.modify_rekey (Drawer.rekey_putCheckAt (within name) apart inKeys constraint)).symm

theorem corresponds_dropCheck :
    Corresponds keys (dropCheck .memory name) (dropCheck (.files store) name) := by
  intro constraint cabinet inKeys within
  refine ⟨within.modify fun inside => inside.withoutCheck _, Prod.ext ?_ ?_⟩
  · exact congrArg Option.isSome (lookup_check_rekey apart name inKeys within)
  · exact (Cabinet.modify_rekey (Drawer.rekey_withoutCheck (within name) apart inKeys)).symm

include within

theorem agrees_addition {spec : Caller.Value}
    (inKeys : ∀ constraints, Constraints.requested true spec = .ok constraints →
      ∀ constraint ∈ constraints, constraint.name ∈ keys) :
    Agrees keys Eq
      ((addition .memory name spec cabinet).1, ((addition .memory name spec cabinet).2, calls))
      ((addition (.files store) name spec (cabinet.rekey keyName)).1,
        ((addition (.files store) name spec (cabinet.rekey keyName)).2, calls)) := by
  rw [addition, addition, Cabinet.active_rekey, ← Cabinet.opened_rekey]
  rcases isRequest : Constraints.requested true spec with failure | _ | ⟨first, rest⟩
  · exact ⟨.error rfl, within, rfl⟩
  · exact ⟨.ok rfl, within, rfl⟩
  · obtain ⟨ends, inTurn⟩ := (corresponds_addCheck store apart name).inTurn
      (inKeys _ isRequest) (within.opened name)
    dsimp only
    split
    · exact ⟨.error rfl, within, rfl⟩
    · rw [inTurn]
      exact ⟨.ok rfl, ends, rfl⟩

theorem agrees_subtraction {spec : Caller.Value}
    (inKeys : ∀ constraints, Constraints.requested false spec = .ok constraints →
      ∀ constraint ∈ constraints, constraint.name ∈ keys) :
    Agrees keys Eq
      ((subtraction .memory name spec cabinet).1,
        ((subtraction .memory name spec cabinet).2, calls))
      ((subtraction (.files store) name spec (cabinet.rekey keyName)).1,
        ((subtraction (.files store) name spec (cabinet.rekey keyName)).2, calls)) := by
  rw [subtraction, subtraction]
  cases isRequest : Constraints.requested false spec with
  | error failure => exact ⟨.error rfl, within, rfl⟩
  | ok constraints =>
      obtain ⟨ends, inTurn⟩ := (corresponds_dropCheck store apart name).inTurn
        (inKeys _ isRequest) within
      dsimp only
      rw [inTurn]
      exact ⟨.ok rfl, ends, rfl⟩

end

/-! ## Operations -/

/-- The keys that an operation names. -/
def Operation.keys : Operation → List String
  | .insert _ document | .save _ document => ((body document).toOption.bind givenId?).toList
  | .findOneById _ id | .removeOneById _ id => (Identifier.ofValue id).toOption.toList
  | .addConstraint _ spec =>
      ((Constraints.requested true spec).toOption.getD []).map Constraint.name
  | .removeConstraint _ spec =>
      ((Constraints.requested false spec).toOption.getD []).map Constraint.name
  | _ => []

/-- The identifiers that a generator gives between two of its calls. -/
def Generates (generator : Nat → Identifier.Generated) (start stop : Nat) (id : String) : Prop :=
  ∃ call, start ≤ call ∧ call < stop ∧ Identifier.check (generator call) = .ok id

/-- The query of an operation that looks for one document is contained by at most one. -/
def Operation.Single (cabinet : Cabinet) : Operation → Prop
  | .findOne collection query | .removeOne collection query =>
      ∀ cursor, cursorOf collection query = .ok cursor →
        ((listing .memory cursor.collection cabinet).filter fun document =>
          Json.contains document cursor.query).length ≤ 1
  | _ => True

/-- A query that a removal takes is one that a cursor takes. -/
theorem cursorOf_of_checked {collection query : Caller.Value} {name : String} {checked : Json}
    (isName : checkedName collection = .ok name) (isQuery : checkedQuery query = .ok checked) :
    cursorOf collection query = .ok ⟨name, checked⟩ := by
  have notAbsent : query ≠ .absent := by
    rintro rfl
    cases isQuery
  have finds : Cursor.find name query = (checkedQuery query).map fun checked => ⟨name, checked⟩ := by
    cases query <;> first | exact absurd rfl notAbsent | rfl
  rw [cursorOf, isName]
  exact finds.trans (by rw [isQuery]; rfl)

section

variable {generator : Nat → Identifier.Generated} {fields : List (String × Json)}

/-- The identifier of a record is given or generated. -/
theorem mem_of_recordOf {keys : Set String} {calls : Nat}
    (given : ∀ id, givenId? fields = some id → id ∈ keys)
    (generated : ∀ id, Generates generator calls (recordOf generator calls fields).2 id → id ∈ keys)
    {id : String} {record : Json}
    (isRecord : (recordOf generator calls fields).1 = .ok (id, record)) : id ∈ keys := by
  unfold recordOf at isRecord generated
  cases isGiven : givenId? fields with
  | some id' =>
      rw [isGiven] at isRecord
      cases isRecord
      exact given _ isGiven
  | none =>
      rw [isGiven] at isRecord generated
      dsimp only at isRecord generated
      cases checked : Identifier.check (generator calls) with
      | error failure =>
          rw [checked] at isRecord
          cases isRecord
      | ok id' =>
          rw [checked] at isRecord
          cases isRecord
          exact generated _ ⟨calls, le_refl _, Nat.lt_succ_self _, checked⟩

end

section

variable (store : FileStore) {generator : Nat → Identifier.Generated} {keys : Set String}
  (apart : Set.InjOn keyName keys) {cabinet : Cabinet} {calls : Nat}
  (slotted : cabinet.Slotted Keeper.memory.slot) (within : cabinet.Within keys)
include apart slotted within

/-- **Both storages tell the same** and stay the same, but for the slots. -/
theorem agrees_outcome {operation : Operation} (named : ∀ key ∈ operation.keys, key ∈ keys)
    (generated : ∀ id, Generates generator calls
      (outcome .memory generator operation (cabinet, calls)).2.2 id → id ∈ keys)
    (single : operation.Single cabinet) :
    Agrees keys operation.SameResult (outcome .memory generator operation (cabinet, calls))
      (outcome (.files store) generator operation (cabinet.rekey keyName, calls)) := by
  cases operation with
  | listCollections =>
      refine .read within ?_
      rw [Cabinet.names_rekey]
      rfl
  | collectionExists collection =>
      refine .settle within fun name _ => .read within ?_
      rw [Cabinet.drawer?_rekey, Option.isSome_map]
      rfl
  | createCollection collection =>
      refine .settle within fun name _ => ⟨?_, within.opened name, ?_⟩
      · rw [Cabinet.drawer?_rekey, Option.isNone_map]
        exact .ok rfl
      · rw [Cabinet.opened_rekey]
  | dropCollection collection =>
      refine .settle within fun name _ => ⟨?_, within.withoutDrawer name, ?_⟩
      · rw [Cabinet.drawer?_rekey, Option.isSome_map]
        exact .ok rfl
      · rw [Cabinet.withoutDrawer_rekey]
  | insert collection document =>
      refine .settle within fun name isName => .settle within fun fields isBody => ?_
      have given (id : String) (isGiven : givenId? fields = some id) : id ∈ keys :=
        named id (by simp [Operation.keys, isBody, Except.toOption, isGiven])
      simp only [outcome, isName, isBody, settle, calls_insertion] at generated
      rw [← Cabinet.opened_rekey]
      exact agrees_insertion store apart (within.opened name) name fun id record isRecord =>
        mem_of_recordOf given generated isRecord
  | save collection document =>
      refine .settle within fun name isName => .settle within fun fields isBody => ?_
      have given (id : String) (isGiven : givenId? fields = some id) : id ∈ keys :=
        named id (by simp [Operation.keys, isBody, Except.toOption, isGiven])
      simp only [outcome, isName, isBody, settle, calls_saving] at generated
      rw [← Cabinet.opened_rekey]
      exact agrees_saving store apart (within.opened name) name given fun id record isRecord =>
        mem_of_recordOf given generated isRecord
  | find collection query =>
      exact .settle within fun found _ =>
        .read within (sameDocuments_listing store slotted found.collection found.query)
  | findOne collection query =>
      exact .settle within fun found isCursor => .read within
        ((sameDocuments_listing store slotted found.collection found.query).head?
          (single found isCursor))
  | count collection query =>
      exact .settle within fun found _ => .read within
        (sameDocuments_listing store slotted found.collection found.query).length_eq
  | findOneById collection id =>
      refine .settle within fun name _ => .settle within fun id isId => .read within ?_
      exact rel_found? store slotted name apart within
        (named id (by simp [Operation.keys, isId, Except.toOption]))
  | remove collection query =>
      exact .settle within fun name _ => .settle within fun query _ =>
        agrees_removal store apart within name query (.inl rfl)
  | removeOne collection query =>
      refine .settle within fun name isName => .settle within fun checked isQuery => ?_
      exact agrees_removal store apart within name checked
        (.inr ⟨rfl, single ⟨name, checked⟩ (cursorOf_of_checked isName isQuery)⟩)
  | removeOneById collection id =>
      refine .settle within fun name _ => .settle within fun id isId => ?_
      have inKeys : id ∈ keys := named id (by simp [Operation.keys, isId, Except.toOption])
      have alone : ∀ key ∈ [id], key ∈ keys := by simpa using inKeys
      refine ⟨?_, within.modify fun inside => inside.withoutFiles _, Prod.ext ?_ rfl⟩
      · have found := lookup_rekey apart within name inKeys
        exact .ok (congrArg (fun found : Option Json => if found.isSome then 1 else 0) found.symm)
      · exact (Cabinet.modify_rekey (Drawer.rekey_withoutFiles (within name) apart alone)).symm
  | addConstraint collection spec =>
      refine .settle within fun name _ => agrees_addition store apart within name ?_
      intro constraints isRequest constraint member
      refine named constraint.name ?_
      simpa [Operation.keys, isRequest, Except.toOption] using ⟨constraint, member, rfl⟩
  | removeConstraint collection spec =>
      refine .settle within fun name _ => agrees_subtraction store apart within name ?_
      intro constraints isRequest constraint member
      refine named constraint.name ?_
      simpa [Operation.keys, isRequest, Except.toOption] using ⟨constraint, member, rfl⟩
  | listConstraints collection =>
      refine .settle within fun name _ => .read within ?_
      rw [Cabinet.active_rekey]
      rfl

end

/-! ## Histories -/

/-- The keys of a history: those that operations name, and the identifiers that are generated. -/
def keysOf (generator : Nat → Identifier.Generated) (start stop : Nat)
    (operations : List Operation) : Set String :=
  { key | (∃ operation ∈ operations, key ∈ operation.keys) ∨ Generates generator start stop key }

namespace Session

/-- At this moment at most one document contains the query of an operation that looks for one. -/
def Single (session : Session) (machine : Machine) : Operation → Prop
  | .findOne collection query | .removeOne collection query =>
      ∀ size, (machine.attempt (session.perform (.count collection query))).1 = .ok size → size ≤ 1
  | _ => True

section

variable {inMemory inFiles : Session} {first second : Machine} {store : FileStore}
  (memory : inMemory.Fresh first .memory) (files : inFiles.Fresh second (.files store))

theorem Fresh.single {session : Session} {machine : Machine}
    (fresh : session.Fresh machine .memory) {operations : List Operation}
    (distinct : ∀ operation ∈ operations, operation.Distinct) {operation : Operation}
    (single : session.Single (session.after machine operations) operation) :
    operation.Single
      (reached .memory machine.generator (Memory.empty, machine.calls) operations).1 := by
  have counts {collection query : Caller.Value} {cursor : Cursor}
      (isCursor : cursorOf collection query = .ok cursor) :
      ((session.after machine operations).attempt
          (session.perform (.count collection query))).1
        = .ok ((listing .memory cursor.collection (reached .memory machine.generator
            (Memory.empty, machine.calls) operations).1).filter fun document =>
              Json.contains document cursor.query).length := by
    rw [(Begins.fresh fresh).attempt_eq distinct
        (show (Operation.count collection query).Distinct from trivial),
      outcome, isCursor]
    rfl
  cases operation with
  | findOne collection query | removeOne collection query =>
      exact fun cursor isCursor => single _ (counts isCursor)
  | _ => trivial

include memory files

end

end Session

/-! ## Both storages at once -/

/-- A document is kept, is not kept again, and is removed. -/
def adaHistory : List Operation :=
  [.insert (.ofString "users") ada, .insert (.ofString "users") ada,
    .removeOne (.ofString "users") ada]

theorem distinct_adaHistory : ∀ operation ∈ adaHistory, operation.Distinct := by
  simpa [adaHistory, Operation.Distinct] using distinct_ada

theorem apart_adaHistory : Apart (keysOf newMachine.generator newMachine.calls
    (memorySession.after newMachine adaHistory).calls adaHistory) := by
  have calls : (memorySession.after newMachine adaHistory).calls = 0 :=
    (Session.Begins.fresh fresh_memorySession).calls_eq distinct_adaHistory
  have isAda : body ada = .ok [("_id", Json.string "ada")] := by decide
  have only {key : String} (member : key ∈ keysOf newMachine.generator newMachine.calls
      (memorySession.after newMachine adaHistory).calls adaHistory) : key = "ada" := by
    rcases member with ⟨operation, isStep, isKey⟩ | ⟨call, _, isEarlier, _⟩
    · have named : ∀ operation ∈ adaHistory, operation.keys ⊆ ["ada"] := by
        simp [adaHistory, Operation.keys, isAda, Except.toOption, givenId?, idField, Json.string?]
      exact List.mem_singleton.mp (named operation isStep isKey)
    · omega
  intro key member key' member' _
  rw [only member, only member']

theorem single_adaHistory (before : List Operation) (operation : Operation) (rest : List Operation)
    (split : adaHistory = before ++ operation :: rest) :
    memorySession.Single (memorySession.after newMachine before) operation := by
  have distinctBefore : ∀ other ∈ before, other.Distinct :=
    fun other member => distinct_adaHistory other (by simp [split, member])
  match before with
  | [] =>
      obtain ⟨rfl, _⟩ := List.cons.inj split
      trivial
  | [_] =>
      obtain ⟨rfl, _⟩ := List.cons.inj (List.cons.inj split).2
      trivial
  | [_, _] =>
      simp only [adaHistory, List.cons_append, List.nil_append, List.cons.injEq] at split
      obtain ⟨rfl, rfl, rfl, _⟩ := split
      intro size isSize
      have one : (outcome .memory newMachine.generator (.count (.ofString "users") ada)
          (reached .memory newMachine.generator (Memory.empty, newMachine.calls)
            [.insert (.ofString "users") ada, .insert (.ofString "users") ada])).1 = .ok 1 := by rfl
      have isDistinct : (Operation.count (.ofString "users") ada).Distinct := trivial
      rw [(Session.Begins.fresh fresh_memorySession).attempt_eq distinctBefore isDistinct, one] at isSize
      exact (Except.ok.inj isSize).ge
  | _ :: _ :: _ :: before =>
      have sizes := congrArg List.length split
      simp only [adaHistory, List.length_cons, List.length_nil, List.length_append] at sizes
      omega

end DocStore.Database
