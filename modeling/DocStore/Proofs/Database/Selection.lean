import DocStore.Proofs.Database.Changes
import DocStore.Proofs.Database.Beginnings
/-!
# What queries select

All operations with a query go by one list: the documents that contain the query, in the order in
which a collection is scanned.  Finding tells this list, counting its length, and finding one its
first document; removing one removes that document and nothing else, and removing removes the whole
list (`Session.Selects`).  What remains stays in its order.

Over files the order is that of the names of the files (`ByFileName`).  In memory it is that of
arrival: of the operations since which an identifier has been stored (`Arrived`).  A document that
is written again keeps its place, and one that comes back after a removal goes to the end.  The
induction is `arrivals_reached`; its steps are `InOrderOfArrival.remain` and
`InOrderOfArrival.arrive`.
-/

set_option autoImplicit false

namespace DocStore

open Files (Named keyName)
open Host (Machine)

/-! ## Removing from a list of entries -/

namespace Lookup

variable {β : Type} {entries : List (String × β)} (distinct : (entries.map Prod.fst).Nodup)
  (test : String × β → Bool)
include distinct

/-- Where keys are distinct the entries that pass a test are known by their keys. -/
theorem mem_keys_filter {entry : String × β} (member : entry ∈ entries) :
    ((entries.filter test).map Prod.fst).contains entry.1 = test entry := by
  rw [Bool.eq_iff_iff, List.contains_iff_mem, List.mem_map]
  constructor
  · rintro ⟨other, inside, same⟩
    obtain ⟨inEntries, passes⟩ := List.mem_filter.mp inside
    rwa [← List.inj_on_of_nodup_map distinct inEntries member same]
  · exact fun passes => ⟨entry, List.mem_filter.mpr ⟨member, passes⟩, rfl⟩

/-- Without the keys of all entries that pass a test, those remain that do not pass it. -/
theorem filter_keys :
    entries.filter (fun entry => !((entries.filter test).map Prod.fst).contains entry.1)
      = entries.filter fun entry => !test entry :=
  List.filter_congr fun _ member => by rw [mem_keys_filter distinct test member]

/-- Without the key of the first entry that passes a test, all others remain. -/
theorem filter_first_key :
    entries.filter (fun entry => !(((entries.filter test).take 1).map Prod.fst).contains entry.1)
      = entries.eraseP test := by
  induction entries with
  | nil => rfl
  | cons entry rest ih =>
      obtain ⟨notInRest, distinctRest⟩ := List.nodup_cons.mp distinct
      by_cases passes : test entry = true
      · rw [List.filter_cons_of_pos passes, List.eraseP_cons_of_pos passes, List.take_succ_cons,
          List.take_zero]
        rw [List.filter_cons_of_neg (by simp)]
        refine List.filter_eq_self.mpr fun other inside => ?_
        have differs : other.1 ≠ entry.1 := fun same => notInRest (same ▸ List.mem_map_of_mem inside)
        simpa using differs
      · rw [List.filter_cons_of_neg passes, List.eraseP_cons_of_neg passes]
        have stays : (((rest.filter test).take 1).map Prod.fst).contains entry.1 = false := by
          refine Bool.eq_false_iff.mpr fun found => notInRest ?_
          obtain ⟨other, inside, same⟩ := List.mem_map.mp (List.contains_iff_mem.mp found)
          exact same ▸ List.mem_map_of_mem (List.mem_of_mem_filter (List.mem_of_mem_take inside))
        rw [List.filter_cons_of_pos (by rw [stays]; rfl), ih distinctRest]

end Lookup

/-! ## Orders of storages -/

/-- A storage whose order does not change when documents are left out. -/
def Keeper.Steady (keeper : Keeper) : Prop :=
  ∀ (drawer : Drawer) (files : List String), (drawer.documents.map Prod.fst).Nodup →
    keeper.order (drawer.withoutFiles files)
      = (keeper.order drawer).filter fun entry => !files.contains entry.1

theorem Keeper.steady_memory : Keeper.memory.Steady := fun _ _ _ => rfl

theorem Keeper.steady_files (store : FileStore) : (Keeper.files store).Steady := by
  intro drawer files distinct
  refine (Sorting.filter_sort (Text.ranks_before.by_part Prod.fst) _ ?_).symm
  intro first inFirst second inSecond notBefore notAfter
  exact List.inj_on_of_nodup_map distinct inFirst inSecond
    (Text.eq_of_not_before notBefore notAfter)

namespace Database

namespace Session

variable {session : Session} {machine : Machine} {keeper : Keeper}

theorem Begins.steady (begins : session.Begins machine keeper) : keeper.Steady := by
  cases begins with
  | fresh fresh =>
      cases fresh with
      | memory => exact Keeper.steady_memory
      | files => exact Keeper.steady_files _
  | unmade => exact Keeper.steady_files _

end Session

/-! ## Selections -/

/-- The documents of a collection that contain a query. -/
def Contents.selected (contents : Contents) (name : String) (query : Json) : List Json :=
  (contents.documents name).filter fun document => Json.contains document query

/-- Contents with other documents in one collection. -/
def Contents.withDocuments (contents : Contents) (name : String) (documents : List Json) :
    Contents :=
  { contents with documents := Function.update contents.documents name documents }

/-- What comes of the operations with a query on a collection, and what is left after each, given
what the database reports. -/
structure Session.Selects (session : Session) (machine : Machine) (contents : Contents)
    (name : String) (query : Caller.Value) (form : Json) : Prop where
  find : (machine.attempt (session.perform (.find (.ofString name) query))).1
    = .ok (contents.selected name form)
  count : (machine.attempt (session.perform (.count (.ofString name) query))).1
    = .ok (contents.selected name form).length
  findOne : (machine.attempt (session.perform (.findOne (.ofString name) query))).1
    = .ok (contents.selected name form).head?
  removeOne : (machine.attempt (session.perform (.removeOne (.ofString name) query))).1
    = .ok (if contents.selected name form = [] then 0 else 1)
  removesOne : session.Reports (machine.attempt (session.perform (.removeOne (.ofString name) query))).2
    (contents.withDocuments name
      ((contents.documents name).eraseP fun document => Json.contains document form))
  remove : (machine.attempt (session.perform (.remove (.ofString name) query))).1
    = .ok (contents.selected name form).length
  removes : session.Reports (machine.attempt (session.perform (.remove (.ofString name) query))).2
    (contents.withDocuments name
      ((contents.documents name).filter fun document => !Json.contains document form))

section

variable {keeper : Keeper} {cabinet : Cabinet} (slotted : cabinet.Slotted keeper.slot)
  (name : String) (query : Json)
include slotted

/-- What is selected for a removal is what is selected of the documents as they are given back. -/
theorem gone_eq (limit : Storage.Limit) :
    gone keeper name query limit cabinet
      = limit.start 0 ((keeper.order (cabinet.held name)).filter fun entry =>
          Json.contains (keeper.shown entry.2) query) := by
  rw [gone]
  refine congrArg (limit.start 0) (List.filter_congr fun entry member => ?_)
  obtain ⟨_, _, _, wellFormed, _⟩ :=
    of_mem_held slotted ((keeper.order_perm _).mem_iff.mp member)
  exact (keeper.contains_shown wellFormed query).symm

omit slotted in
/-- The documents that are selected are the entries that are selected, as they are given back. -/
theorem selected_ofKeeper :
    (Contents.ofKeeper keeper cabinet).selected name query
      = ((keeper.order (cabinet.held name)).filter fun entry =>
          Json.contains (keeper.shown entry.2) query).map fun entry => keeper.shown entry.2 := by
  show (List.map _ _).filter _ = _
  rw [List.filter_map]
  rfl

/-- What a database reports when some files of a collection have been left out. -/
theorem ofKeeper_withoutFiles (steady : keeper.Steady) (files : List String) :
    Contents.ofKeeper keeper (cabinet.modify name fun drawer => drawer.withoutFiles files)
      = (Contents.ofKeeper keeper cabinet).withDocuments name
          (((keeper.order (cabinet.held name)).filter fun entry => !files.contains entry.1).map
            fun entry => keeper.shown entry.2) := by
  have change : Change keeper name cabinet (fun _ => False) .removes _ :=
    .removed (fun _ => not_false) files
  have documents (wanted : String) :
      listing keeper wanted (cabinet.modify name fun drawer => drawer.withoutFiles files)
        = Function.update (fun other => listing keeper other cabinet) name
            (((keeper.order (cabinet.held name)).filter fun entry => !files.contains entry.1).map
              fun entry => keeper.shown entry.2) wanted := by
    by_cases elsewhere : wanted = name
    · subst elsewhere
      rw [Function.update_self, listing, ← steady _ _ (slotted.held wanted).documentsDistinct]
      refine congrArg (List.map _) (keeper.order_congr ?_)
      rw [Cabinet.held, Cabinet.drawer?_modify, if_pos rfl, Cabinet.held]
      cases cabinet.drawer? wanted <;> rfl
    · rw [Function.update_of_ne elsewhere, listing, Cabinet.held, change.drawer?_eq elsewhere,
        ← Cabinet.held, listing]
  have constraints (wanted : String) :
      (cabinet.modify name fun drawer => drawer.withoutFiles files).active wanted
        = cabinet.active wanted := by
    rw [Cabinet.active, change.checks_eq (by decide) (by decide) (by decide) wanted, Cabinet.active]
  rw [Contents.withDocuments, Contents.ofKeeper, change.collections_eq (.inl rfl),
    funext documents, funext constraints]
  rfl

end

theorem cursorOf_query {name : String} (named : Named name) {query : Caller.Value} {form : Json}
    (isQuery : checkedQuery query = .ok form) :
    cursorOf (.ofString name) query = .ok ⟨name, form⟩ := by
  rw [cursorOf, checkedName_ofString named]
  show Cursor.find name query = _
  cases query with
  | absent => cases isQuery
  | _ =>
      dsimp only [Cursor.find]
      rw [isQuery]
      rfl

/-! ## Arrivals -/

/-- An identifier is that of a document of a collection. -/
def Contents.Has (contents : Contents) (name id : String) : Prop :=
  ∃ document ∈ contents.documents name, FileStore.documentId? document = some id

/-- The operation after some others stored an identifier that was not stored then, and that has
been stored ever since. -/
def Arrived (told : (before : List Operation) → (operation : Operation) →
      Except Failure operation.Result)
    (isStored : List Operation → Prop) (name id : String) (operations before : List Operation) :
    Prop :=
  ∃ operation since, operations = before ++ operation :: since
    ∧ operation.Wrote name id (told before operation)
    ∧ ¬ isStored before
    ∧ ∀ earlier, earlier <+: since → isStored (before ++ operation :: earlier)

section

variable {told : (before : List Operation) → (operation : Operation) →
    Except Failure operation.Result} {isStored : List Operation → Prop} {name id : String}
  {operations before : List Operation}

theorem Arrived.concat (arrived : Arrived told isStored name id operations before)
    {next : Operation} (stays : isStored (operations ++ [next])) :
    Arrived told isStored name id (operations ++ [next]) before := by
  obtain ⟨operation, since, rfl, wrote, isNew, stored⟩ := arrived
  refine ⟨operation, since ++ [next], by simp, wrote, isNew, fun earlier isPrefix => ?_⟩
  rcases List.prefix_concat_iff.mp isPrefix with rfl | isPrefix
  · simpa using stays
  · exact stored earlier isPrefix

theorem Arrived.congr (arrived : Arrived told isStored name id operations before)
    {told' : (before : List Operation) → (operation : Operation) → Except Failure operation.Result}
    {isStored' : List Operation → Prop}
    (sameTold : ∀ before operation since, operations = before ++ operation :: since →
      told before operation = told' before operation)
    (sameStored : ∀ moment, moment <+: operations → (isStored moment ↔ isStored' moment)) :
    Arrived told' isStored' name id operations before := by
  obtain ⟨operation, since, rfl, wrote, isNew, stored⟩ := arrived
  refine ⟨operation, since, rfl, sameTold _ _ _ rfl ▸ wrote, ?_, fun earlier isPrefix => ?_⟩
  · exact fun isStored => isNew ((sameStored _ (List.prefix_append _ _)).mpr isStored)
  · refine (sameStored _ ?_).mp (stored earlier isPrefix)
    exact (List.prefix_append_right_inj _).mpr (List.cons_prefix_cons.mpr ⟨rfl, isPrefix⟩)

theorem Arrived.length_lt (arrived : Arrived told isStored name id operations before) :
    before.length < operations.length := by
  obtain ⟨operation, since, rfl, _⟩ := arrived
  simp

end

/-- Identifiers in the order of their arrival. -/
structure InOrderOfArrival (told : (before : List Operation) → (operation : Operation) →
      Except Failure operation.Result)
    (isStored : String → List Operation → Prop) (name : String) (operations : List Operation)
    (ids : List String) : Prop where
  arrived : ∀ id ∈ ids, ∃ before, Arrived told (isStored id) name id operations before
  inOrder : ids.Pairwise fun first second => ∃ before before',
    Arrived told (isStored first) name first operations before
      ∧ Arrived told (isStored second) name second operations before'
      ∧ before.length < before'.length

section

variable {told : (before : List Operation) → (operation : Operation) →
    Except Failure operation.Result} {isStored : String → List Operation → Prop} {name : String}
  {operations : List Operation} {ids : List String}
  (order : InOrderOfArrival told isStored name operations ids) {next : Operation}
include order

/-- What remains stored has not arrived again. -/
theorem InOrderOfArrival.remain {left : List String} (within : left.Sublist ids)
    (stays : ∀ id ∈ left, isStored id (operations ++ [next])) :
    InOrderOfArrival told isStored name (operations ++ [next]) left where
  arrived id member := by
    obtain ⟨before, since⟩ := order.arrived id (within.subset member)
    exact ⟨before, since.concat (stays id member)⟩
  inOrder := (order.inOrder.sublist within).imp_of_mem fun inFirst inSecond earlier => by
    obtain ⟨before, before', since, since', rising⟩ := earlier
    exact ⟨before, before', since.concat (stays _ inFirst), since'.concat (stays _ inSecond), rising⟩

omit next in
theorem InOrderOfArrival.congr
    {told' : (before : List Operation) → (operation : Operation) → Except Failure operation.Result}
    {isStored' : String → List Operation → Prop}
    (sameTold : ∀ before operation since, operations = before ++ operation :: since →
      told before operation = told' before operation)
    (sameStored : ∀ id moment, moment <+: operations → (isStored id moment ↔ isStored' id moment)) :
    InOrderOfArrival told' isStored' name operations ids where
  arrived id member := by
    obtain ⟨before, arrived⟩ := order.arrived id member
    exact ⟨before, arrived.congr sameTold (sameStored id)⟩
  inOrder := order.inOrder.imp fun earlier => by
    obtain ⟨before, before', arrived, arrived', rising⟩ := earlier
    exact ⟨before, before', arrived.congr sameTold (sameStored _),
      arrived'.congr sameTold (sameStored _), rising⟩

/-- What arrives goes to the end. -/
theorem InOrderOfArrival.arrive {id : String} (wrote : next.Wrote name id (told operations next))
    (isNew : ¬ isStored id operations)
    (stays : ∀ other ∈ ids ++ [id], isStored other (operations ++ [next])) :
    InOrderOfArrival told isStored name (operations ++ [next]) (ids ++ [id]) := by
  have remain := order.remain (.refl ids) fun other member => stays other (List.mem_append_left _ member)
  have last : Arrived told (isStored id) name id (operations ++ [next]) operations := by
    refine ⟨next, [], rfl, wrote, isNew, fun earlier isPrefix => ?_⟩
    rw [List.prefix_nil.mp isPrefix]
    exact stays id (by simp)
  refine ⟨fun other member => ?_, List.pairwise_append.mpr ⟨remain.inOrder, List.pairwise_singleton _ _,
    fun other member => ?_⟩⟩
  · rcases List.mem_append.mp member with old | new
    · exact remain.arrived other old
    · exact List.mem_singleton.mp new ▸ ⟨operations, last⟩
  · obtain ⟨before, since⟩ := order.arrived other member
    simp only [List.mem_singleton, forall_eq]
    exact ⟨before, operations, since.concat (stays other (List.mem_append_left _ member)), last,
      since.length_lt⟩

end

section

variable {generator : Nat → Identifier.Generated} {start : Cabinet × Nat} {name : String}
  {operations : List Operation}

/-- The identifiers of the documents that are in memory after some operations. -/
def idsAfter (generator : Nat → Identifier.Generated) (start : Cabinet × Nat) (name : String)
    (operations : List Operation) : List String :=
  ((reached .memory generator start operations).1.held name).documents.map Prod.fst

/-- **In memory identifiers are in the order of their arrival.** -/
theorem arrivals_reached (empty : start.1 = .empty)
    (distinct : ∀ operation ∈ operations, operation.Distinct) :
    InOrderOfArrival (fun before operation =>
        (outcome .memory generator operation (reached .memory generator start before)).1)
      (fun id moment => id ∈ idsAfter generator start name moment) name operations
      (idsAfter generator start name operations) := by
  induction operations using List.reverseRecOn with
  | nil =>
      have nothing : idsAfter generator start name [] = [] := by
        show ((start.1.held name).documents).map Prod.fst = []
        rw [empty]
        rfl
      rw [nothing]
      exact ⟨nofun, .nil⟩
  | append_singleton operations operation ih =>
      have order := ih fun other member => distinct other (List.mem_append_left _ member)
      have rewritten := rewritten_outcome .memory generator
        (reached .memory generator start operations) (distinct operation (by simp)) name
      rw [← reached_concat] at rewritten
      generalize isAfter : ((reached .memory generator start (operations ++ [operation])).1.held
        name).documents = documents at rewritten
      have ids : idsAfter generator start name (operations ++ [operation]) = documents.map Prod.fst :=
        congrArg (List.map Prod.fst) isAfter
      cases rewritten with
      | left _ within =>
          rw [ids]
          exact order.remain (within.map Prod.fst) fun id member => ids ▸ member
      | @written id record isWritten _ isId _ =>
          by_cases isKey : id ∈ idsAfter generator start name operations
          · have same := ids.trans (Content.map_fst_put_of_mem record isKey)
            rw [same]
            exact order.remain (.refl _) fun id member => same ▸ member
          · have longer := ids.trans (congrArg (List.map Prod.fst) (Content.put_of_not_mem record isKey))
            rw [List.map_append] at longer
            rw [longer]
            exact order.arrive ((isWritten id).mpr rfl) isKey fun other member => longer ▸ member

end

/-- Documents in the order of the names of their files. -/
def ByFileName (documents : List Json) : Prop :=
  documents.Pairwise fun first second => ∃ id id', FileStore.documentId? first = some id
    ∧ FileStore.documentId? second = some id' ∧ Text.before (keyName id) (keyName id') = true

/-- Over files documents are listed in the order of the names of their files. -/
theorem byFileName_listing {store : FileStore} {cabinet : Cabinet}
    (slotted : cabinet.Slotted (Keeper.files store).slot) (name : String) :
    ByFileName (listing (.files store) name cabinet) := by
  have inSlots := slotted.held name
  have sorted : Sorting.Sorted Text.before ((cabinet.held name).sorted.map Prod.fst) := by
    rw [Drawer.map_fst_sorted]
    exact Sorting.sorted_sort Text.ranks_before _
  have distinct : ((cabinet.held name).sorted.map Prod.fst).Nodup :=
    ((cabinet.held name).sorted_perm.map Prod.fst).nodup_iff.mpr inSlots.documentsDistinct
  refine List.pairwise_map.mpr ?_
  refine ((List.pairwise_map.mp sorted).and (List.pairwise_map.mp distinct)).imp_of_mem ?_
  intro first second inFirst inSecond notAfter
  obtain ⟨id, isId, _, _, isPlace⟩ :=
    of_mem_held slotted ((cabinet.held name).sorted_perm.mem_iff.mp inFirst)
  obtain ⟨id', isId', _, _, isPlace'⟩ :=
    of_mem_held slotted ((cabinet.held name).sorted_perm.mem_iff.mp inSecond)
  refine ⟨id, id', isId, isId', ?_⟩
  have isBefore : Text.before first.1 second.1 = true := by
    by_contra notBefore
    exact notAfter.2 (Text.eq_of_not_before (Bool.eq_false_iff.mpr notBefore) notAfter.1)
  rwa [isPlace, isPlace'] at isBefore

/-! ## At every moment -/

namespace Session

/-- The documents of a collection are listed in the order of their storage: in memory in the order
of their arrival, over files in the order of the names of their files. -/
def InScanOrder (session : Session) (machine : Machine) (contents : List Operation → Contents)
    (operations : List Operation) (name : String) : Prop :=
  match session.backend with
  | .memory =>
      ∃ ids, ((contents operations).documents name).map FileStore.documentId? = ids.map some
        ∧ InOrderOfArrival (fun before operation =>
            ((session.after machine before).attempt (session.perform operation)).1)
          (fun id moment => (contents moment).Has name id) name operations ids
  | .files _ => ByFileName ((contents operations).documents name)

section

variable {session : Session} {machine : Machine} {keeper : Keeper} {operations : List Operation}

/-- **Queries select** what they select of all documents of a collection. -/
theorem Begins.selects_at (begins : session.Begins machine keeper)
    (distinct : ∀ operation ∈ operations, operation.Distinct) {name : String} (named : Named name)
    {query : Caller.Value} {form : Json} (isQuery : checkedQuery query = .ok form) :
    session.Selects (session.after machine operations)
      (.ofKeeper keeper
        (reached keeper machine.generator (Memory.empty, machine.calls) operations).1)
      name query form := by
  have slotted : Cabinet.Slotted keeper.slot
      (reached keeper machine.generator (Memory.empty, machine.calls) operations).1 :=
    slotted_reached Cabinet.slotted_empty distinct
  have answers (operation : Operation) (isDistinct : operation.Distinct) :=
    begins.attempt_eq distinct isDistinct
  have reports (operation : Operation) (isDistinct : operation.Distinct) :=
    begins.reports_concat distinct operation isDistinct
  have isCursor := cursorOf_query named isQuery
  generalize reached keeper machine.generator (Memory.empty, machine.calls) operations = state
    at slotted answers reports ⊢
  have distinctKeys : ((keeper.order (state.1.held name)).map Prod.fst).Nodup :=
    ((keeper.order_perm _).map _).nodup_iff.mpr (slotted.held name).documentsDistinct
  let order := keeper.order (state.1.held name)
  let matching : String × Json → Bool := fun entry => Json.contains (keeper.shown entry.2) form
  have selected : (Contents.ofKeeper keeper state.1).selected name form
      = (order.filter matching).map fun entry => keeper.shown entry.2 :=
    selected_ofKeeper name form
  have documents : (Contents.ofKeeper keeper state.1).documents name
      = order.map fun entry => keeper.shown entry.2 := rfl
  -- Both removals leave out the files of what they select, up to their limits.
  have removal_eq (limit : Storage.Limit) : removal keeper name form limit state
      = (.ok (limit.start 0 (order.filter matching)).length,
          (state.1.modify name fun drawer => drawer.withoutFiles
            ((limit.start 0 (order.filter matching)).map Prod.fst), state.2)) := by
    rw [removal, gone_eq slotted name form limit]
  have left (limit : Storage.Limit) :
      Contents.ofKeeper keeper (removal keeper name form limit state).2.1
        = (Contents.ofKeeper keeper state.1).withDocuments name ((order.filter fun entry =>
            !((limit.start 0 (order.filter matching)).map Prod.fst).contains entry.1).map
              fun entry => keeper.shown entry.2) := by
    rw [removal_eq]
    exact ofKeeper_withoutFiles slotted name begins.steady _
  have remove : outcome keeper machine.generator (.remove (.ofString name) query) state
      = removal keeper name form .none state := by
    rw [outcome, checkedName_ofString named, isQuery]
    rfl
  have removeOne : outcome keeper machine.generator (.removeOne (.ofString name) query) state
      = removal keeper name form (.upTo 1) state := by
    rw [outcome, checkedName_ofString named, isQuery]
    rfl
  refine ⟨?_, ?_, ?_, ?_, ?_, ?_, ?_⟩
  · rw [answers (.find (.ofString name) query) trivial, outcome, isCursor]
    rfl
  · rw [answers (.count (.ofString name) query) trivial, outcome, isCursor]
    rfl
  · rw [answers (.findOne (.ofString name) query) trivial, outcome, isCursor]
    rfl
  · rw [answers (.removeOne (.ofString name) query) trivial, removeOne, removal_eq, selected]
    cases order.filter matching <;> rfl
  · have after := reports (.removeOne (.ofString name) query) trivial
    rw [removeOne, left] at after
    rw [documents, List.eraseP_map]
    exact (Lookup.filter_first_key distinctKeys matching) ▸ after
  · rw [answers (.remove (.ofString name) query) trivial, remove, removal_eq, selected,
      List.length_map]
    rfl
  · have after := reports (.remove (.ofString name) query) trivial
    rw [remove, left] at after
    rw [documents, List.filter_map]
    exact (Lookup.filter_keys distinctKeys matching) ▸ after

/-- What is stored in memory is stored under its identifier. -/
theorem documentId?_memory {cabinet : Cabinet} (slotted : cabinet.Slotted Keeper.memory.slot)
    (name : String) :
    (listing .memory name cabinet).map FileStore.documentId?
      = ((cabinet.held name).documents.map Prod.fst).map some := by
  rw [listing, List.map_map, List.map_map]
  refine List.map_congr_left fun entry member => ?_
  obtain ⟨id, isId, _, _, isPlace⟩ := of_mem_held slotted member
  exact isId.trans (congrArg some isPlace.symm)

/-- Every collection is listed in the order of its storage. -/
theorem Begins.inScanOrder (begins : session.Begins machine keeper)
    (distinct : ∀ operation ∈ operations, operation.Distinct) (name : String) :
    session.InScanOrder machine (fun moment => .ofKeeper keeper
        (reached keeper machine.generator (Memory.empty, machine.calls) moment).1)
      operations name := by
  have slotted {moment : List Operation} (isPrefix : moment <+: operations) :
      Cabinet.Slotted keeper.slot
        (reached keeper machine.generator (Memory.empty, machine.calls) moment).1 :=
    slotted_reached Cabinet.slotted_empty fun operation inside =>
      distinct operation (isPrefix.subset inside)
  have stands := begins.after distinct
  unfold InScanOrder
  cases backend : session.backend with
  | files store =>
      obtain rfl := stands.of_files backend
      exact byFileName_listing (slotted (List.prefix_refl _)) name
  | memory =>
      obtain ⟨rfl, _⟩ := stands.of_memory backend
      refine ⟨_, documentId?_memory (slotted (List.prefix_refl _)) name,
        (arrivals_reached rfl distinct).congr (fun before operation since split => ?_)
          fun id moment isPrefix => ?_⟩
      · refine (begins.attempt_eq (fun other inside => distinct other ?_) (distinct operation ?_)).symm
        all_goals simp [split]
        exact .inl inside
      · have ids := congrArg (fun ids => some id ∈ ids) (documentId?_memory (slotted isPrefix) name)
        rw [List.mem_map, List.mem_map_of_injective (Option.some_injective _)] at ids
        exact ids.symm.to_iff

/-- **At every moment of a history**, over either storage, every query goes by one list: the
documents of a collection that contain it, in the order in which the storage keeps them. -/
theorem Begins.selects (begins : session.Begins machine keeper)
    (distinct : ∀ operation ∈ operations, operation.Distinct) :
    ∃ contents : List Operation → Contents,
      (∀ moment, moment <+: operations →
        session.Reports (session.after machine moment) (contents moment))
      ∧ ∀ name, Collection.nameFault? name = none →
        session.InScanOrder machine contents operations name
        ∧ ∀ query form, checkedQuery query = .ok form →
          session.Selects (session.after machine operations) (contents operations) name query
            form :=
  ⟨_, fun _ isPrefix => begins.reports fun operation inside =>
      distinct operation (isPrefix.subset inside),
    fun name isName => ⟨begins.inScanOrder distinct name, fun _ _ isQuery =>
      begins.selects_at distinct (Files.named_of_nameFault? isName) isQuery⟩⟩

end

end Session

/-- A document is removed and comes back. -/
def comesBack : List Operation :=
  [.insert (.ofString "users") ada, .removeOneById (.ofString "users") (.ofString "ada"),
    .insert (.ofString "users") ada]

/-- The queries of a database in memory go by the documents in the order of their arrival. -/
theorem selects_what_came_back :
    memorySession.Begins newMachine .memory
      ∧ (∀ operation ∈ comesBack, operation.Distinct)
      ∧ Collection.nameFault? "users" = none
      ∧ checkedQuery (.object false []) = .ok (.object [])
      ∧ ∃ contents : List Operation → Contents,
        memorySession.Reports (memorySession.after newMachine comesBack) (contents comesBack)
        ∧ memorySession.InScanOrder newMachine contents comesBack "users"
        ∧ memorySession.Selects (memorySession.after newMachine comesBack) (contents comesBack)
          "users" (.object false []) (.object []) := by
  have begins : memorySession.Begins newMachine .memory := .fresh fresh_memorySession
  have distinct : ∀ operation ∈ comesBack, operation.Distinct := by
    simpa [comesBack, Operation.Distinct] using distinct_ada
  have isName : Collection.nameFault? "users" = none := by decide
  have isQuery : checkedQuery (.object false []) = .ok (.object []) := rfl
  obtain ⟨contents, reports, selects⟩ := begins.selects distinct
  obtain ⟨inOrder, each⟩ := selects "users" isName
  exact ⟨begins, distinct, isName, isQuery, contents, reports comesBack (List.prefix_refl _), inOrder,
    each _ _ isQuery⟩

end Database

end DocStore
