import DocStore.Proofs.Json.Settled
import DocStore.Proofs.Storage.Cabinet
/-!
# What storages have in common

A storage keeps every document and every constraint in a slot: the storage in memory under the
identifier or name itself, the storage in files under the name of a file.  They give documents back
in orders of their own, and as they are or as they are read from their files.  A `Keeper` is a
storage together with these differences and with a law for each operation, which says how the
operation is answered and what it does to the collections; `Keeper.memory` and `Keeper.files` are
the two storages.  What follows from the laws holds of both.
-/

set_option autoImplicit false

namespace DocStore

open Files (Named keyName)

/-- A failure without what a lower layer gave as the reason. -/
def Failure.bare : Failure → Failure
  | .database error => .ofFault error.fault
  | failure => failure

namespace Cabinet

/-- The cabinet in which a collection exists. -/
def opened (cabinet : Cabinet) (name : String) : Cabinet :=
  match cabinet.drawer? name with
  | some _ => cabinet
  | none => cabinet.putDrawer name ⟨[], []⟩

/-- The cabinet with a change of a collection, if it exists. -/
def modify (cabinet : Cabinet) (name : String) (change : Drawer → Drawer) : Cabinet :=
  match cabinet.drawer? name with
  | some drawer => cabinet.putDrawer name (change drawer)
  | none => cabinet

/-- What a collection holds: nothing if it does not exist. -/
def held (cabinet : Cabinet) (name : String) : Drawer :=
  (cabinet.drawer? name).getD ⟨[], []⟩

/-- What a collection asks of its documents, in the order of the names. -/
def active (cabinet : Cabinet) (name : String) : List Constraint :=
  Sorting.sort (fun first second => Text.before first.name second.name)
    ((cabinet.held name).checks.map Prod.snd)

section

variable {cabinet : Cabinet} {name : String} {drawer : Drawer} {change : Drawer → Drawer}
  {slot : String → String}

theorem held_eq (there : cabinet.drawer? name = some drawer) : cabinet.held name = drawer := by
  rw [held, there, Option.getD_some]

theorem held_of_missing (missing : cabinet.drawer? name = none) :
    cabinet.held name = ⟨[], []⟩ := by
  rw [held, missing, Option.getD_none]

theorem drawer?_opened (wanted : String) :
    (cabinet.opened name).drawer? wanted
      = if wanted = name then some (cabinet.held name) else cabinet.drawer? wanted := by
  unfold opened
  split
  next there =>
    rw [held_eq there]
    split
    next same => rw [same, there]
    next => rfl
  next missing => rw [drawer?_putDrawer, held_of_missing missing]

theorem opened_of_there (there : (cabinet.drawer? name).isSome) : cabinet.opened name = cabinet := by
  obtain ⟨drawer, there⟩ := Option.isSome_iff_exists.mp there
  rw [opened, there]

theorem there_opened : ((cabinet.opened name).drawer? name).isSome := by
  rw [drawer?_opened, if_pos rfl]
  rfl

/-- Creating a collection does not change what collections hold. -/
theorem held_opened (wanted : String) : (cabinet.opened name).held wanted = cabinet.held wanted := by
  rw [held, drawer?_opened]
  split
  next same => rw [same, Option.getD_some]
  next => rfl

theorem active_opened (wanted : String) :
    (cabinet.opened name).active wanted = cabinet.active wanted := by
  rw [active, active, held_opened]

theorem drawer?_modify (wanted : String) :
    (cabinet.modify name change).drawer? wanted
      = if wanted = name then (cabinet.drawer? name).map change else cabinet.drawer? wanted := by
  unfold modify
  split
  next there => rw [drawer?_putDrawer, there, Option.map_some]
  next missing =>
    rw [missing, Option.map_none]
    split
    next same => rw [same, missing]
    next => rfl

theorem held_modify (there : (cabinet.drawer? name).isSome) (wanted : String) :
    (cabinet.modify name change).held wanted
      = if wanted = name then change (cabinet.held name) else cabinet.held wanted := by
  obtain ⟨drawer, there⟩ := Option.isSome_iff_exists.mp there
  rw [held, drawer?_modify, there, held_eq there]
  split
  · rw [Option.map_some, Option.getD_some]
  · rfl

theorem Slotted.held (slotted : cabinet.Slotted slot) (name : String) :
    (cabinet.held name).Slotted slot := by
  cases there : cabinet.drawer? name with
  | none =>
      rw [held_of_missing there]
      exact Drawer.slotted_empty
  | some drawer =>
      rw [held_eq there]
      exact (slotted.each name drawer there).2

theorem Slotted.opened (slotted : cabinet.Slotted slot) (named : Named name) :
    (cabinet.opened name).Slotted slot := by
  unfold Cabinet.opened
  split
  · exact slotted
  · exact slotted.putDrawer named Drawer.slotted_empty

theorem Slotted.modify (slotted : cabinet.Slotted slot)
    (each : ∀ drawer : Drawer, drawer.Slotted slot → (change drawer).Slotted slot) :
    (cabinet.modify name change).Slotted slot := by
  unfold Cabinet.modify
  split
  next there =>
    obtain ⟨named, drawerSlotted⟩ := slotted.each name _ there
    exact slotted.putDrawer named (each _ drawerSlotted)
  · exact slotted

end

end Cabinet

/-- A storage of JSON documents, with what sets it apart from other storages and the laws that all
of them obey. -/
structure Keeper where
  /-- What an operation answers and does. -/
  perform : (op : Storage.Op .json) → Cabinet → op.Answer × Cabinet
  /-- Where a document or constraint is kept. -/
  slot : String → String
  /-- A kept document as it is given back. -/
  shown : Json → Json
  /-- The documents of a collection in the order in which they are given back. -/
  order : Drawer → List (String × Json)
  /-- The failure of keeping a new document where one is kept already. -/
  taken : (name id : String) → Failure
  taken_bare (name id : String) :
    (taken name id).bare = .ofFault (.duplicateId (.ofString name) (.ofString id))
  order_perm (drawer : Drawer) : (order drawer).Perm drawer.documents
  order_congr {drawer drawer' : Drawer} (same : drawer.documents = drawer'.documents) :
    order drawer = order drawer'
  shown_wellFormed {document : Json} (wellFormed : document.WellFormed) :
    (shown document).WellFormed
  shown_alike {document : Json} (wellFormed : document.WellFormed) :
    Json.Alike document (shown document)
  contains_shown {document : Json} (wellFormed : document.WellFormed) (query : Json) :
    Json.contains (shown document) query = Json.contains document query
  exists_eq (cabinet : Cabinet) (name : String) :
    perform (.exists name) cabinet = (.ok (cabinet.drawer? name).isSome, cabinet)
  create_eq (cabinet : Cabinet) (name : String) :
    perform (.create name) cabinet = (.ok (cabinet.drawer? name).isNone, cabinet.opened name)
  drop_eq (cabinet : Cabinet) (name : String) :
    perform (.drop name) cabinet
      = (.ok (cabinet.drawer? name).isSome, cabinet.withoutDrawer name)
  collections_eq (cabinet : Cabinet) :
    perform .collections cabinet
      = (.ok (Sorting.sort Text.before (cabinet.collections.map Prod.fst)), cabinet)
  put_eq {cabinet : Cabinet} {name : String} (there : (cabinet.drawer? name).isSome) (id : String)
      (document : Json) :
    perform (.put name id document) cabinet
      = if ((cabinet.held name).documents.lookup (slot id)).isSome then
          (.error (taken name id), cabinet)
        else (.ok (), cabinet.modify name fun drawer => drawer.putAt (slot id) document)
  get_eq {cabinet : Cabinet} (slotted : cabinet.Slotted slot) (name id : String) :
    perform (.get name id) cabinet
      = (.ok ((((cabinet.held name).documents.lookup (slot id)).filter fun document =>
          FileStore.documentId? document == some id).map shown), cabinet)
  replace_eq (cabinet : Cabinet) (name id : String) (document : Json) :
    perform (.replace name id document) cabinet
      = if ((cabinet.held name).documents.lookup (slot id)).isSome then
          (.ok true, cabinet.modify name fun drawer => drawer.putAt (slot id) document)
        else (.ok false, cabinet)
  scan_eq (cabinet : Cabinet) (name : String) (query : Json) :
    perform (.scan name query) cabinet
      = (.ok (((order (cabinet.held name)).map fun entry => shown entry.2).filter fun document =>
          Json.contains document query), cabinet)
  deleteMatching_eq {cabinet : Cabinet} (slotted : cabinet.Slotted slot) (name : String)
      (query : Json) {limit : Storage.Limit} (comparable : limit ≠ .incomparable) :
    let gone := limit.start 0 ((order (cabinet.held name)).filter fun entry =>
      Json.contains entry.2 query)
    perform (.deleteMatching name query limit) cabinet
      = (.ok (gone.map fun entry => shown entry.2),
          cabinet.modify name fun drawer => drawer.withoutFiles (gone.map Prod.fst))
  deleteById_eq (cabinet : Cabinet) (name id : String) :
    perform (.deleteById name id) cabinet
      = (.ok ((cabinet.held name).documents.lookup (slot id)).isSome,
          cabinet.modify name fun drawer => drawer.withoutFiles [slot id])
  addCheck_eq {cabinet : Cabinet} {name : String} (there : (cabinet.drawer? name).isSome)
      (key : String) (check : Constraint) :
    perform (.addCheck name key check) cabinet
      = if ((cabinet.held name).checks.lookup (slot key)).isSome then (.ok false, cabinet)
        else (.ok true, cabinet.modify name fun drawer => drawer.putCheckAt (slot key) check)
  dropCheck_eq (cabinet : Cabinet) (name key : String) :
    perform (.dropCheck name key) cabinet
      = (.ok ((cabinet.held name).checks.lookup (slot key)).isSome,
          cabinet.modify name fun drawer => drawer.withoutCheck (slot key))
  checks_eq {cabinet : Cabinet} (slotted : cabinet.Slotted slot) (name : String) :
    ∃ checks : List (StoredCheck .json), perform (.checks name) cabinet = (.ok checks, cabinet)
      ∧ checks.Perm ((cabinet.held name).checks.map fun entry => ⟨entry.2.name, entry.2⟩)

namespace Keeper

/-! ## In memory -/

theorem start_subset {β : Type} (limit : Storage.Limit) (taken : Nat) (list : List β) :
    limit.start taken list ⊆ list := by
  cases limit with
  | none | incomparable => exact List.Subset.refl list
  | upTo most => exact List.take_subset _ list

/-- A removal from memory takes the first documents that contain the query, up to the limit. -/
theorem splitMatching_eq {query : Json} {limit : Storage.Limit}
    (comparable : limit ≠ .incomparable) :
    ∀ (removed : Nat) (documents : List (String × Json)), (documents.map Prod.fst).Nodup →
      @Memory.splitMatching .json query limit removed documents
        = (.ok ((limit.start removed (documents.filter fun entry =>
              Json.contains entry.2 query)).map Prod.snd),
            documents.filter fun entry => !((limit.start removed (documents.filter fun entry =>
              Json.contains entry.2 query)).map Prod.fst).contains entry.1) := by
  intro removed documents distinct
  induction documents generalizing removed with
  | nil =>
      simp [Memory.splitMatching]
  | cons entry rest ih =>
      obtain ⟨id, document⟩ := entry
      obtain ⟨notInRest, distinct⟩ := List.nodup_cons.mp distinct
      -- The slot of the first document is not among those that are removed from the rest.
      have stays (count : Nat) : ((limit.start count (rest.filter fun entry =>
          Json.contains entry.2 query)).map Prod.fst).contains id = false := by
        by_contra found
        have member : id ∈ (limit.start count (rest.filter fun entry =>
          Json.contains entry.2 query)).map Prod.fst := by simpa using found
        obtain ⟨entry, inStart, rfl⟩ := List.mem_map.mp member
        have inRest : entry ∈ rest := (List.mem_filter.mp (start_subset limit count _ inStart)).1
        have isKey : entry.1 ∈ rest.map Prod.fst := List.mem_map_of_mem inRest
        exact notInRest isKey
      rcases Storage.Limit.reached_or comparable (String × Json) removed with
        ⟨reached, nothing⟩ | ⟨reached, oneMore⟩
      · simp [Memory.splitMatching, reached, nothing]
      · cases matching : Json.contains document query with
        | false =>
            have later := ih removed distinct
            simp only [Memory.splitMatching, reached, Content.contains, matching, later,
              List.filter_cons, Bool.false_eq_true, if_false, stays, Bool.not_false, if_true]
        | true =>
            have later := ih (removed + 1) distinct
            simp only [Memory.splitMatching, reached, Content.contains, matching, later,
              List.filter_cons, if_true, oneMore, List.map_cons, List.contains_cons, beq_self_eq_true,
              Bool.true_or, Bool.not_true, Bool.false_eq_true, if_false]
            refine Prod.ext rfl (List.filter_congr fun other inRest => ?_)
            have isKey : other.1 ∈ rest.map Prod.fst := List.mem_map_of_mem inRest
            have differs : (other.1 == id) = false :=
              beq_eq_false_iff_ne.mpr fun same => notInRest (same ▸ isKey)
            rw [differs, Bool.false_or]

section

variable {β : Type} (test : β → Bool)

/-- A filter that cannot fail collects what it lets through, in front of what it has found. -/
theorem filterAuxM_ok (list found : List β) :
    List.filterAuxM (fun element => (.ok (test element) : Except Failure Bool)) list found
      = .ok ((list.filter test).reverse ++ found) := by
  induction list generalizing found with
  | nil => rfl
  | cons head rest ih =>
      rw [List.filterAuxM, List.filter_cons]
      show List.filterAuxM _ rest (cond (test head) (head :: found) found) = _
      rw [ih]
      cases test head with
      | true => rw [cond_true, if_pos rfl, List.reverse_cons, List.append_assoc]; rfl
      | false => rw [cond_false, if_neg Bool.false_ne_true]

theorem filterM_ok (list : List β) :
    list.filterM (fun element => (.ok (test element) : Except Failure Bool))
      = .ok (list.filter test) := by
  rw [List.filterM, filterAuxM_ok]
  simp [pure, bind, Except.bind, Except.pure]

end

theorem collection?_eq (cabinet : Cabinet) (name : String) :
    Memory.collection? cabinet name = cabinet.drawer? name :=
  Memory.collection?_eq_lookup cabinet name

theorem modify_eq_putDrawer {cabinet : Cabinet} {name : String} {drawer : Drawer}
    (there : cabinet.drawer? name = some drawer) (change : Drawer → Drawer) :
    cabinet.modify name change = cabinet.putDrawer name (change drawer) := by
  rw [Cabinet.modify, there]

theorem modify_of_missing {cabinet : Cabinet} {name : String}
    (missing : cabinet.drawer? name = none) (change : Drawer → Drawer) :
    cabinet.modify name change = cabinet := by
  rw [Cabinet.modify, missing]

/-- Dropping a collection that does not exist changes nothing. -/
theorem withoutDrawer_of_missing {cabinet : Cabinet} {name : String}
    (missing : cabinet.drawer? name = none) : cabinet.withoutDrawer name = cabinet := by
  have absent := Lookup.lookup_eq_none_iff.mp missing
  refine congrArg Memory.mk (List.filter_eq_self.mpr fun entry member => ?_)
  have differs : entry.1 ≠ name := by
    rintro rfl
    exact absent (List.mem_map_of_mem member)
  simpa [Content.same] using differs

/-- The storage in memory, which keeps everything as it is given. -/
def memory : Keeper where
  perform op cabinet := Memory.perform cabinet op
  slot key := key
  shown document := document
  order drawer := drawer.documents
  taken name id := @Storage.taken .json name id
  taken_bare _ _ := rfl
  order_perm _ := .refl _
  order_congr same := same
  shown_wellFormed wellFormed := wellFormed
  shown_alike wellFormed := .refl wellFormed
  contains_shown _ _ := rfl
  exists_eq cabinet name := by simp only [Memory.perform, collection?_eq]
  create_eq cabinet name := by
    simp only [Memory.perform, collection?_eq, Cabinet.opened]
    cases cabinet.drawer? name <;> rfl
  drop_eq cabinet name := by
    simp only [Memory.perform, collection?_eq]
    cases there : cabinet.drawer? name with
    | some drawer =>
        rfl
    | none =>
        rw [withoutDrawer_of_missing there]
        rfl
  collections_eq _ := rfl
  put_eq {cabinet name} there id document := by
    obtain ⟨drawer, there⟩ := Option.isSome_iff_exists.mp there
    rw [modify_eq_putDrawer there, Cabinet.held_eq there]
    simp only [Memory.perform, collection?_eq, there, Content.find?_json]
    rfl
  get_eq {cabinet} slotted name id := by
    simp only [Memory.perform, collection?_eq, Content.find?_json]
    cases there : cabinet.drawer? name with
    | none =>
        rw [Cabinet.held_of_missing there]
        rfl
    | some drawer =>
        rw [Cabinet.held_eq there]
        have inSlots := (slotted.each name drawer there).2.documents id
        rw [Option.bind_some]
        cases found : drawer.documents.lookup id with
        | none => rfl
        | some document =>
            obtain ⟨_, _, isId, rfl⟩ := inSlots document found
            have isGiven : (FileStore.documentId? document == some id) = true := by
              rw [isId, beq_self_eq_true]
            rw [Option.filter_some, Option.filter_some, isGiven]
            rfl
  replace_eq cabinet name id document := by
    simp only [Memory.perform, collection?_eq, Content.find?_json]
    cases there : cabinet.drawer? name with
    | none =>
        rw [Cabinet.held_of_missing there]
        rfl
    | some drawer =>
        rw [modify_eq_putDrawer there, Cabinet.held_eq there]
        rfl
  scan_eq cabinet name query := by
    simp only [Memory.perform, collection?_eq]
    cases there : cabinet.drawer? name with
    | none =>
        rw [Cabinet.held_of_missing there]
        rfl
    | some drawer =>
        rw [Cabinet.held_eq there]
        exact congrArg (fun found => (found, cabinet)) (filterM_ok _ _)
  deleteMatching_eq {cabinet} slotted name query limit comparable := by
    simp only [Memory.perform, collection?_eq]
    cases there : cabinet.drawer? name with
    | none =>
        rw [modify_of_missing there, Cabinet.held_of_missing there, List.filter_nil,
          limit.start_nil]
        rfl
    | some drawer =>
        have distinct := (slotted.each name drawer there).2.documentsDistinct
        rw [modify_eq_putDrawer there, Cabinet.held_eq there]
        dsimp only
        rw [splitMatching_eq comparable 0 drawer.documents distinct]
        rfl
  deleteById_eq cabinet name id := by
    simp only [Memory.perform, collection?_eq, Content.find?_json]
    cases there : cabinet.drawer? name with
    | none =>
        rw [modify_of_missing there, Cabinet.held_of_missing there]
        rfl
    | some drawer =>
        rw [modify_eq_putDrawer there, Cabinet.held_eq there]
        have same : drawer.withoutFiles [id]
            = { drawer with documents := Content.json.remove id drawer.documents } := by
          refine congrArg (fun documents => { drawer with documents }) ?_
          exact List.filter_congr fun entry _ => by
            simp [Content.same, beq_eq_decide]
        rw [same]
        rfl
  addCheck_eq {cabinet name} there key check := by
    obtain ⟨drawer, there⟩ := Option.isSome_iff_exists.mp there
    rw [modify_eq_putDrawer there, Cabinet.held_eq there]
    simp only [Memory.perform, collection?_eq, there, Content.find?_json]
    rfl
  dropCheck_eq cabinet name key := by
    simp only [Memory.perform, collection?_eq, Content.find?_json]
    cases there : cabinet.drawer? name with
    | none =>
        rw [modify_of_missing there, Cabinet.held_of_missing there]
        rfl
    | some drawer =>
        rw [modify_eq_putDrawer there, Cabinet.held_eq there]
        rfl
  checks_eq {cabinet} slotted name := by
    refine ⟨(cabinet.held name).checks.map fun entry => ⟨entry.1, entry.2⟩, ?_, .of_eq ?_⟩
    · simp only [Memory.perform, collection?_eq]
      cases there : cabinet.drawer? name with
      | none => rw [Cabinet.held_of_missing there, List.map_nil]
      | some drawer => rw [Cabinet.held_eq there]
    · refine List.map_congr_left fun entry member => ?_
      rw [← (slotted.held name).of_mem_checks member]

/-! ## In files -/

section

variable (store : FileStore)

/-- The storage in files, which keeps everything under the names of files and gives documents back
as they are read. -/
def files : Keeper where
  perform op cabinet := Cabinet.perform store cabinet op
  slot := keyName
  shown := Json.settled .document
  order := Drawer.sorted
  taken name id := Cabinet.taken (store.documentPath name id) name id
  taken_bare _ _ := rfl
  order_perm := Drawer.sorted_perm
  order_congr same := congrArg (Sorting.sort _) same
  shown_wellFormed := Json.wellFormed_settled .document
  shown_alike := Json.alike_settled .document
  contains_shown := Json.contains_settled .document
  exists_eq _ _ := rfl
  create_eq cabinet name := by
    simp only [Cabinet.perform, Cabinet.opened]
    cases cabinet.drawer? name <;> rfl
  drop_eq cabinet name := by
    simp only [Cabinet.perform]
    cases there : cabinet.drawer? name with
    | some drawer => rfl
    | none => rw [withoutDrawer_of_missing there]; rfl
  collections_eq _ := rfl
  put_eq {cabinet name} there id document := by
    obtain ⟨drawer, there⟩ := Option.isSome_iff_exists.mp there
    rw [modify_eq_putDrawer there, Cabinet.held_eq there]
    simp only [Cabinet.perform, there]
    rfl
  get_eq {cabinet} slotted name id := by
    simp only [Cabinet.perform, Cabinet.document?]
    cases there : cabinet.drawer? name with
    | none =>
        rw [Cabinet.held_of_missing there]
        rfl
    | some drawer =>
        rw [Cabinet.held_eq there, Option.bind_some]
        have inSlots := (slotted.each name drawer there).2.documents (keyName id)
        cases found : drawer.documents.lookup (keyName id) with
        | none => rfl
        | some document =>
            have sameId := FileStore.documentId?_settled (inSlots document found).1
            rw [Option.map_some, Option.filter_some, Option.filter_some, sameId]
            split <;> rfl
  replace_eq cabinet name id document := by
    simp only [Cabinet.perform]
    cases there : cabinet.drawer? name with
    | none =>
        rw [Cabinet.held_of_missing there]
        rfl
    | some drawer =>
        rw [modify_eq_putDrawer there, Cabinet.held_eq there]
        rfl
  scan_eq cabinet name query := by
    simp only [Cabinet.perform, Cabinet.documents]
    cases there : cabinet.drawer? name with
    | none =>
        rw [Cabinet.held_of_missing there]
        rfl
    | some drawer => rw [Cabinet.held_eq there]
  deleteMatching_eq {cabinet} slotted name query limit comparable := by
    simp only [Cabinet.perform]
    cases there : cabinet.drawer? name with
    | none =>
        have sorted : Drawer.sorted ⟨[], []⟩ = [] := rfl
        rw [modify_of_missing there, Cabinet.held_of_missing there, sorted, List.filter_nil,
          limit.start_nil]
        rfl
    | some drawer =>
        rw [modify_eq_putDrawer there, Cabinet.held_eq there]
        rfl
  deleteById_eq cabinet name id := by
    simp only [Cabinet.perform]
    cases there : cabinet.drawer? name with
    | none =>
        rw [modify_of_missing there, Cabinet.held_of_missing there]
        rfl
    | some drawer => rw [modify_eq_putDrawer there, Cabinet.held_eq there]
  addCheck_eq {cabinet name} there key check := by
    obtain ⟨drawer, there⟩ := Option.isSome_iff_exists.mp there
    rw [modify_eq_putDrawer there, Cabinet.held_eq there]
    simp only [Cabinet.perform, there]
    rfl
  dropCheck_eq cabinet name key := by
    simp only [Cabinet.perform]
    cases there : cabinet.drawer? name with
    | none =>
        rw [modify_of_missing there, Cabinet.held_of_missing there]
        rfl
    | some drawer => rw [modify_eq_putDrawer there, Cabinet.held_eq there]
  checks_eq {cabinet} _ name := by
    refine ⟨cabinet.checks name, rfl, ?_⟩
    rw [Cabinet.checks]
    cases there : cabinet.drawer? name with
    | none => rw [Cabinet.held_of_missing there]; rfl
    | some drawer =>
        rw [Cabinet.held_eq there]
        exact drawer.sortedChecks_perm.map _

end

end Keeper

end DocStore
