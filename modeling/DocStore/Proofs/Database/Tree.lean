import DocStore.Proofs.Database.Alone
import Mathlib.Data.List.Induction
/-!
# What a database leaves on the disk

What a database tells about itself decides what lies below its root: `Contents.Holds` lists the
directories and files that belong to some contents.  `Session.tree_of_history` says that after any
operations, whether they succeed or fail, these lie there and nothing else, but perhaps an empty
directory for locks.  The invariant that carries the induction over the operations is
`Session.Rests`: the root holds a cabinet, and no lock is held.
-/

set_option autoImplicit false

namespace DocStore.Database

open Disk (Branch Entry Place Shows Vacant)
open Files (Named keyName)
open Host (Machine)

/-- What a database tells about itself. -/
structure Contents where
  /-- The collections. -/
  collections : List String
  /-- The documents of each collection. -/
  documents : String → List Json
  /-- The constraints of each collection. -/
  constraints : String → List Constraint

namespace Contents

/-- What belongs to some contents below a root. -/
inductive Holds (layout : Json.Layout) (contents : Contents) : List String → Node → Prop
  | collection {name : String} (listed : name ∈ contents.collections) :
      Holds layout contents [name] .directory
  | part {name part : String} (listed : name ∈ contents.collections)
      (isPart : part = "docs" ∨ part = "constraints") :
      Holds layout contents [name, part] .directory
  | document {name id : String} {document : Json} (listed : name ∈ contents.collections)
      (stored : document ∈ contents.documents name)
      (isId : FileStore.documentId? document = some id) :
      Holds layout contents [name, "docs", keyName id]
        (.file (Json.canonicalText layout .document document))
  | constraint {name : String} {constraint : Constraint} (listed : name ∈ contents.collections)
      (active : constraint ∈ contents.constraints name) :
      Holds layout contents [name, "constraints", keyName constraint.name]
        (.file (Json.canonicalText layout .alphabetical
          (StoredCheck.toJson ⟨constraint.name, constraint⟩)))

/-- Every document and every constraint has a file of its own. -/
structure Separate (contents : Contents) : Prop where
  collections : contents.collections.Nodup
  identified : ∀ name ∈ contents.collections, ∀ document ∈ contents.documents name,
    (FileStore.documentId? document).isSome
  documents : ∀ name ∈ contents.collections,
    ((contents.documents name).map fun document =>
      (FileStore.documentId? document).map keyName).Nodup
  constraints : ∀ name ∈ contents.collections,
    ((contents.constraints name).map fun constraint => keyName constraint.name).Nodup

/-- The contents that a cabinet is. -/
def ofCabinet (cabinet : Cabinet) : Contents where
  collections := Sorting.sort Text.before (cabinet.collections.map Prod.fst)
  documents := cabinet.documents
  constraints name := (Sorting.sort (fun first second => Text.before first.name second.name)
    (cabinet.checks name)).map StoredCheck.check

section

variable {cabinet : Cabinet} (orderly : cabinet.Orderly)

theorem mem_collections {name : String} :
    name ∈ (ofCabinet cabinet).collections ↔ ∃ drawer, cabinet.drawer? name = some drawer := by
  rw [ofCabinet, (Sorting.sort_perm _ _).mem_iff, ← Option.ne_none_iff_exists', Cabinet.drawer?,
    ne_eq, Lookup.lookup_eq_none_iff, not_not]

theorem documents_ofCabinet {name : String} {drawer : Drawer}
    (there : cabinet.drawer? name = some drawer) :
    (ofCabinet cabinet).documents name
      = drawer.sorted.map fun entry => Json.settled .document entry.2 := by
  show cabinet.documents name = _
  rw [Cabinet.documents, there]

theorem constraints_perm {name : String} {drawer : Drawer}
    (there : cabinet.drawer? name = some drawer) :
    ((ofCabinet cabinet).constraints name).Perm (drawer.checks.map Prod.snd) := by
  show ((Sorting.sort _ (cabinet.checks name)).map StoredCheck.check).Perm _
  refine ((Sorting.sort_perm _ _).map StoredCheck.check).trans ?_
  rw [Cabinet.checks, there, List.map_map]
  exact drawer.sortedChecks_perm.map Prod.snd

include orderly

/-- What is in the tree of a cabinet belongs to its contents. -/
theorem holds_of_node? {layout : Json.Layout} {names : List String} {node : Node}
    (found : cabinet.node? layout names = some node) :
    (ofCabinet cabinet).Holds layout names node := by
  match names with
  | [] => cases found
  | name :: rest =>
      obtain ⟨drawer, there, found⟩ := Option.bind_eq_some_iff.mp found
      have listed := mem_collections.mpr ⟨drawer, there⟩
      have drawerOrderly := (orderly.each _ _ there).2
      match rest with
      | [] =>
          cases found
          exact .collection listed
      | [part] =>
          rw [Drawer.node?] at found
          split at found
          next isPart =>
            cases found
            exact .part listed isPart
          next => cases found
      | [part, file] =>
          rw [Drawer.node?] at found
          split at found
          next isPart =>
            subst isPart
            obtain ⟨document, inside, rfl⟩ := Option.map_eq_some_iff.mp found
            obtain ⟨wellFormed, id, isId, rfl⟩ := drawerOrderly.documents _ _ inside
            rw [← Json.canonicalText_settled layout .document wellFormed]
            refine .document listed ?_ ((FileStore.documentId?_settled wellFormed).trans isId)
            rw [documents_ofCabinet there, List.mem_map]
            exact ⟨(keyName id, document),
              drawer.sorted_perm.mem_iff.mpr (Lookup.mem_of_lookup inside), rfl⟩
          next =>
            split at found
            next isPart =>
              subst isPart
              obtain ⟨check, inside, rfl⟩ := Option.map_eq_some_iff.mp found
              rw [drawerOrderly.checks _ _ inside]
              refine .constraint listed ((constraints_perm there).mem_iff.mpr ?_)
              exact List.mem_map_of_mem (Lookup.mem_of_lookup inside)
            next => cases found
      | _ :: _ :: _ :: _ => cases found

/-- What belongs to the contents of a cabinet is in its tree. -/
theorem node?_of_holds {layout : Json.Layout} {names : List String} {node : Node}
    (holds : (ofCabinet cabinet).Holds layout names node) :
    cabinet.node? layout names = some node := by
  cases holds with
  | collection listed =>
      obtain ⟨drawer, there⟩ := mem_collections.mp listed
      exact (Keeps.node?_eq there layout []).trans rfl
  | part listed isPart =>
      obtain ⟨drawer, there⟩ := mem_collections.mp listed
      exact (Keeps.node?_eq there layout [_]).trans (if_pos isPart)
  | @document name id document listed stored isId =>
      obtain ⟨drawer, there⟩ := mem_collections.mp listed
      have drawerOrderly := (orderly.each _ _ there).2
      rw [documents_ofCabinet there, List.mem_map] at stored
      obtain ⟨⟨file, document⟩, inside, rfl⟩ := stored
      have found := (Lookup.lookup_eq_some_iff drawerOrderly.documentsDistinct).mpr
        (drawer.sorted_perm.mem_iff.mp inside)
      obtain ⟨wellFormed, id', isId', rfl⟩ := drawerOrderly.documents _ _ found
      rw [FileStore.documentId?_settled wellFormed, isId'] at isId
      obtain rfl : id' = id := Option.some.inj isId
      rw [Keeps.node?_eq there, Drawer.node?_document, found, Option.map_some,
        Json.canonicalText_settled layout .document wellFormed]
  | @constraint name constraint listed active =>
      obtain ⟨drawer, there⟩ := mem_collections.mp listed
      have drawerOrderly := (orderly.each _ _ there).2
      obtain ⟨⟨file, check⟩, inside, rfl⟩ :=
        List.mem_map.mp ((constraints_perm there).mem_iff.mp active)
      have found := (Lookup.lookup_eq_some_iff drawerOrderly.checksDistinct).mpr inside
      have isKey := drawerOrderly.checks _ _ found
      rw [Keeps.node?_eq there, Drawer.node?_check, ← isKey, found]
      rfl

/-- The tree of a cabinet is what belongs to its contents. -/
theorem node?_eq_some_iff {layout : Json.Layout} {names : List String} {node : Node} :
    cabinet.node? layout names = some node ↔ (ofCabinet cabinet).Holds layout names node :=
  ⟨holds_of_node? orderly, node?_of_holds orderly⟩

/-- The identifier of a document names its file, also as it is read back. -/
theorem file_settled {name : String} {drawer : Drawer}
    (there : cabinet.drawer? name = some drawer) {entry : String × Json}
    (member : entry ∈ drawer.documents) :
    (FileStore.documentId? (Json.settled .document entry.2)).map keyName = some entry.1 := by
  have drawerOrderly := (orderly.each _ _ there).2
  obtain ⟨wellFormed, id, isId, isKey⟩ := drawerOrderly.of_mem_documents member
  rw [FileStore.documentId?_settled wellFormed, isId, Option.map_some, ← isKey]

/-- The files of a cabinet are distinct. -/
theorem separate_ofCabinet : (ofCabinet cabinet).Separate where
  collections := (Sorting.sort_perm _ _).nodup_iff.mpr orderly.distinct
  identified name listed document stored := by
    obtain ⟨drawer, there⟩ := mem_collections.mp listed
    rw [documents_ofCabinet there, List.mem_map] at stored
    obtain ⟨entry, inside, rfl⟩ := stored
    rw [← Option.isSome_map, file_settled orderly there (drawer.sorted_perm.mem_iff.mp inside)]
    rfl
  documents name listed := by
    obtain ⟨drawer, there⟩ := mem_collections.mp listed
    have files : ((drawer.sorted.map fun entry => Json.settled .document entry.2).map
        fun document => (FileStore.documentId? document).map keyName)
        = (drawer.sorted.map Prod.fst).map some := by
      rw [List.map_map, List.map_map]
      exact List.map_congr_left fun entry member =>
        file_settled orderly there (drawer.sorted_perm.mem_iff.mp member)
    rw [documents_ofCabinet there, files]
    refine List.Nodup.map (Option.some_injective _) ?_
    exact (drawer.sorted_perm.map Prod.fst).nodup_iff.mpr
      (orderly.each _ _ there).2.documentsDistinct
  constraints name listed := by
    obtain ⟨drawer, there⟩ := mem_collections.mp listed
    have drawerOrderly := (orderly.each _ _ there).2
    have files : (drawer.checks.map Prod.snd).map (fun constraint => keyName constraint.name)
        = drawer.checks.map Prod.fst := by
      rw [List.map_map]
      exact List.map_congr_left fun entry member => (drawerOrderly.of_mem_checks member).symm
    refine ((constraints_perm there).map _).nodup_iff.mpr ?_
    rw [files]
    exact drawerOrderly.checksDistinct

end

end Contents

/-! ## What a database over a cabinet tells -/

theorem checkedName_ofString {name : String} (named : Named name) :
    checkedName (.ofString name) = .ok name := by
  have isText : (Caller.Value.ofString name).string? = some name := rfl
  rw [checkedName, isText]
  dsimp only
  rw [named.accepted]

theorem cursorOf_all {name : String} (named : Named name) :
    cursorOf (.ofString name) .absent = .ok ⟨name, .object []⟩ := by
  rw [cursorOf, checkedName_ofString named]
  rfl

section

variable (store : FileStore) (generator : Nat → Identifier.Generated) (state : Cabinet × Nat)
  (orderly : state.1.Orderly) {name : String} {drawer : Drawer}
  (there : state.1.drawer? name = some drawer)

theorem eval_listCollections :
    (Attempt.eval (answerOfCabinet store generator) (perform .listCollections) state).1
      = .ok (Contents.ofCabinet state.1).collections := rfl

include orderly there

theorem eval_findAll :
    (Attempt.eval (answerOfCabinet store generator) (perform (.find (.ofString name) .absent))
      state).1 = .ok ((Contents.ofCabinet state.1).documents name) := by
  have named := (orderly.each _ _ there).1
  have isThere : Attempt.eval (answerOfCabinet store generator) (Database.store (.exists name)) state
      = (.ok true, state) := by
    refine (eval_storeOn _ generator (.exists name) state).trans ?_
    simp only [Cabinet.perform, there]
    rfl
  have all : ((state.1.documents name).filter fun document =>
      Json.contains document (.object [])) = state.1.documents name := by
    refine List.filter_eq_self.mpr fun document stored => ?_
    have isDocument := (Contents.separate_ofCabinet orderly).identified name
      (Contents.mem_collections.mpr ⟨drawer, there⟩) document stored
    obtain ⟨id, isId⟩ := Option.isSome_iff_exists.mp isDocument
    obtain ⟨fields, rfl⟩ := FileStore.exists_fields_of_documentId? isId
    rfl
  rw [perform, cursor_eq, cursorOf_all named]
  show (Attempt.eval _ (Documents.scan name (.object [])) state).1 = _
  rw [Documents.scan, Attempt.eval_bind_ok isThere]
  exact congrArg Except.ok all

theorem eval_listConstraints :
    (Attempt.eval (answerOfCabinet store generator) (perform (.listConstraints (.ofString name)))
      state).1 = .ok ((Contents.ofCabinet state.1).constraints name) := by
  have named := (orderly.each _ _ there).1
  rw [perform, Database.named, checkedName_ofString named]
  rfl

end

/-! ## Histories -/

namespace Session

/-- A machine after some operations, whatever came of each. -/
def after (session : Session) (machine : Machine) (operations : List Operation) : Machine :=
  operations.foldl (fun machine operation => (machine.attempt (session.perform operation)).2) machine

/-- What a database tells about itself on a machine. -/
structure Tells (session : Session) (machine : Machine) (contents : Contents) : Prop where
  collections : (machine.attempt (session.perform .listCollections)).1 = .ok contents.collections
  documents : ∀ name ∈ contents.collections,
    (machine.attempt (session.perform (.find (.ofString name) .absent))).1
      = .ok (contents.documents name)
  constraints : ∀ name ∈ contents.collections,
    (machine.attempt (session.perform (.listConstraints (.ofString name)))).1
      = .ok (contents.constraints name)

/-- A database over files that is opened on an empty root. -/
structure Opened (session : Session) (store : FileStore) (home : Place) (machine : Machine) :
    Prop where
  backend : session.backend = .files store
  vacant : Vacant machine.disk store.root home
  blank : store.layout.Blank

section

variable {session : Session} {store : FileStore} {home : Place} {machine : Machine}
  (opened : Opened session store home machine)
include opened

theorem Opened.blanks : ∀ layout ∈ ({store.layout} : Set Json.Layout), layout.Blank :=
  fun _ same => Set.mem_singleton_iff.mp same ▸ opened.blank

/-- **No operation leaves anything but a cabinet below the root**, whatever came of it. -/
theorem rests_after {operations : List Operation}
    (distinct : ∀ operation ∈ operations, operation.Distinct) :
    ∃ state, Rests {store.layout} machine.disk home machine.generator Unlocked state
      (session.after machine operations) := by
  induction operations using List.reverseRecOn with
  | nil =>
      exact ⟨(Memory.empty, machine.calls), rests_of_vacant opened.vacant (Set.mem_singleton _)⟩
  | append_singleton before operation ih =>
      obtain ⟨state, rests⟩ := ih fun other member => distinct other (List.mem_append_left _ member)
      have orderly := perform_orderly (distinct operation (by simp))
      have goesOn := (agrees opened.vacant opened.backend (Set.mem_singleton _) opened.blanks
        orderly rests).2
      rw [after, List.foldl_append]
      exact ⟨_, goesOn⟩

theorem tells_of_rests {state : Cabinet × Nat} {last : Machine}
    (rests : Rests {store.layout} machine.disk home machine.generator Unlocked state last) :
    session.Tells last (Contents.ofCabinet state.1) := by
  obtain ⟨_, _, _, _, keeps⟩ := rests.below
  have answers (operation : Operation) (distinct : operation.Distinct) :=
    (agrees opened.vacant opened.backend (Set.mem_singleton _) opened.blanks
      (perform_orderly distinct) rests).1
  refine ⟨?_, fun name listed => ?_, fun name listed => ?_⟩
  · exact (answers .listCollections trivial).trans
      (eval_listCollections store _ state)
  · obtain ⟨drawer, there⟩ := Contents.mem_collections.mp listed
    exact (answers (.find (.ofString name) .absent) trivial).trans
      (eval_findAll store _ state keeps.orderly there)
  · obtain ⟨drawer, there⟩ := Contents.mem_collections.mp listed
    exact (answers (.listConstraints (.ofString name)) trivial).trans
      (eval_listConstraints store _ state keeps.orderly there)

end

end Session

namespace Contents

/-- Contents that are told alike have the same tree. -/
theorem holds_of_tells {session : Session} {machine : Machine} {contents contents' : Contents}
    (tells : session.Tells machine contents) (tells' : session.Tells machine contents')
    {layout : Json.Layout} {names : List String} {node : Node}
    (holds : contents.Holds layout names node) : contents'.Holds layout names node := by
  have listed {name : String} (isListed : name ∈ contents.collections) :
      name ∈ contents'.collections := by
    rwa [← Except.ok.inj (tells.collections.symm.trans tells'.collections)]
  cases holds with
  | collection isListed => exact .collection (listed isListed)
  | part isListed isPart => exact .part (listed isListed) isPart
  | @document name _ _ isListed stored isId =>
      have same := Except.ok.inj ((tells.documents name isListed).symm.trans
        (tells'.documents name (listed isListed)))
      exact .document (listed isListed) (same ▸ stored) isId
  | @constraint name _ isListed active =>
      have same := Except.ok.inj ((tells.constraints name isListed).symm.trans
        (tells'.constraints name (listed isListed)))
      exact .constraint (listed isListed) (same ▸ active)

end Contents

namespace Session

/-- What lies below a root, apart from the locks, whatever identities the entries have. -/
def treeAt (machine : Machine) (home : Place) (names : List String) : Option Node :=
  if names = [] ∨ names.head? = some lockDirectory then none
  else Option.map Entry.node <| machine.disk.entry? (home ++ names)

section

variable {session : Session} {store : FileStore} {home : Place} {machine : Machine}
  (opened : Opened session store home machine)
include opened

omit opened in
theorem treeAt_of_rests {origin : Disk} {generator : Nat → Identifier.Generated}
    {state : Cabinet × Nat} {last : Machine}
    (rests : Rests {store.layout} origin home generator Unlocked state last)
    (names : List String) (node : Node) :
    treeAt last home names = some node
      ↔ (Contents.ofCabinet state.1).Holds store.layout names node := by
  obtain ⟨branch, locked, _, shows, keeps⟩ := rests.below
  rw [← Contents.node?_eq_some_iff keeps.orderly, treeAt]
  split
  next outside =>
    have noNode : state.1.node? store.layout names = none := by
      rcases outside with rfl | isLock
      · rfl
      · obtain ⟨rest, rfl⟩ := List.head?_eq_some_iff.mp isLock
        rw [Cabinet.node?, keeps.missing_of_hidden (by decide)]
        rfl
    rw [noNode]
  next inside =>
    rw [not_or] at inside
    obtain ⟨layout, isLayout, kept⟩ := keeps.kept names inside.2
    rw [shows.shows names inside.1, kept, Set.mem_singleton_iff.mp isLayout]

/-- **The tree of a history.**  After any operations, whether they succeed or fail, the root holds
the directories and files of what the database tells about itself, and nothing else but perhaps an
empty directory for locks.  Histories after which the databases tell the same leave the same
tree. -/
theorem tree_of_history {operations : List Operation}
    (distinct : ∀ operation ∈ operations, operation.Distinct) :
    ∃ contents, session.Tells (session.after machine operations) contents ∧ contents.Separate
      ∧ (∀ names node, treeAt (session.after machine operations) home names = some node
          ↔ contents.Holds store.layout names node)
      ∧ (∀ names, names ≠ [] →
          Disk.entry? (session.after machine operations).disk
            (home ++ lockDirectory :: names) = none)
      ∧ (∀ entry,
          Disk.entry? (session.after machine operations).disk (home ++ [lockDirectory]) = some entry →
          entry.node = .directory)
      ∧ ∀ (session' : Session) (store' : FileStore) (home' : Place) (machine' : Machine)
          (operations' : List Operation), Opened session' store' home' machine' →
          store'.layout = store.layout → (∀ operation ∈ operations', operation.Distinct) →
          session'.Tells (session'.after machine' operations') contents →
          ∀ names, treeAt (session'.after machine' operations') home' names
            = treeAt (session.after machine operations) home names := by
  obtain ⟨state, rests⟩ := rests_after opened distinct
  have tells := tells_of_rests opened rests
  have tree := treeAt_of_rests rests
  obtain ⟨branch, locked, unlocked, shows, keeps⟩ := rests.below
  refine ⟨Contents.ofCabinet state.1, tells, Contents.separate_ofCabinet keeps.orderly, tree,
    fun names nonempty => ?_, fun entry found => ?_,
    fun session' store' home' machine' operations' opened' sameLayout distinct' tells' names => ?_⟩
  · rw [shows.shows _ (by simp), keeps.locked, unlocked.bare names nonempty]
  · rw [shows.shows _ (by simp), keeps.locked] at found
    rcases unlocked.directory with missing | ⟨identity, isDirectory⟩
    · rw [missing] at found
      cases found
    · rw [isDirectory] at found
      cases found
      rfl
  · obtain ⟨state', rests'⟩ := rests_after opened' distinct'
    have tells'' := tells_of_rests opened' rests'
    refine Option.ext fun node => ?_
    rw [treeAt_of_rests rests', tree, sameLayout]
    exact ⟨Contents.holds_of_tells tells'' tells', Contents.holds_of_tells tells' tells''⟩

end

end Session

/-! ## An empty root -/

/-- Indentations that are numbers, or that are not said, are blank. -/
theorem FileStore.blank_ofOptions (root : Disk.Path) (timeout retry : Caller.Value)
    (logger : Log.Logger) {indent : Caller.Value}
    (isNumber : indent = .absent ∨ ∃ count, indent = .scalar (.number count)) :
    (FileStore.ofOptions root indent timeout retry logger).layout.Blank := by
  have layout : (FileStore.ofOptions root indent timeout retry logger).layout
      = if indent.isMissing then .ofNumber FileStore.defaultIndent
        else Caller.layoutOf indent := rfl
  rw [layout]
  rcases isNumber with rfl | ⟨count, rfl⟩
  · have missing : Caller.Value.absent.isMissing = true := rfl
    rw [if_pos missing]
    exact Json.Layout.blank_ofNumber FileStore.defaultIndent
  · exact Json.Layout.blank_ofNumber count

/-- A store in a directory of a new machine. -/
def newStore : FileStore :=
  .ofOptions ["data"] .absent .absent .absent ⟨.error, false⟩

/-- A database over that store. -/
def newSession : Session := .start 0 (.files newStore) newStore.logger

/-- A new machine with the directory of that store. -/
def newMachine : Machine := Machine.start.withDirectory ["data"]

theorem vacant_newMachine : Vacant newMachine.disk newStore.root ["data"] := by
  have disk : newMachine.disk = ⟨[(["data"], .directory 1)], 2⟩ := rfl
  have only {place : Place} {entry : Entry} (found : newMachine.disk.entry? place = some entry) :
      place = [] ∨ place = ["data"] := by
    cases place with
    | nil => exact .inl rfl
    | cons name rest =>
        have found : [(["data"], Entry.directory 1)].lookup (name :: rest) = some entry := found
        rw [List.lookup_cons] at found
        split at found
        next same => exact .inr (by simpa using same)
        next => cases found
  refine ⟨.inr ⟨by decide, by decide⟩, ⟨by rw [disk]; decide, by rw [disk]; decide, ?_⟩,
    fun place entry found => ?_, ⟨1, rfl⟩, by decide, fun names nonempty => ?_⟩
  · rw [disk]
    simp [Entry.identity?]
  · rcases only found with rfl | rfl <;> exact ⟨0, rfl⟩
  · cases found : newMachine.disk.entry? (["data"] ++ names) with
    | none => rfl
    | some entry => simpa [nonempty] using only found

theorem blank_newStore : newStore.layout.Blank := by
  unfold newStore
  exact FileStore.blank_ofOptions ["data"] .absent .absent ⟨.error, false⟩ (.inl rfl)

theorem opened_newSession : newSession.Opened newStore ["data"] newMachine where
  backend := rfl
  vacant := vacant_newMachine
  blank := blank_newStore

/-- A document with an identifier and nothing else. -/
def ada : Caller.Value := .object false [("_id", .ofString "ada")]

theorem distinct_ada : ada.Distinct :=
  .object (by decide) (by simpa using Caller.Value.distinct_ofString "ada")

/-- An insertion that is refused because the identifier is taken leaves no residue. -/
theorem taken_identifier_leaves_no_residue :
    newSession.Opened newStore ["data"] newMachine
      ∧ (∀ operation ∈ [Operation.insert (.ofString "users") ada, .insert (.ofString "users") ada],
        operation.Distinct)
      ∧ Disk.entry? (newSession.after newMachine
          [.insert (.ofString "users") ada, .insert (.ofString "users") ada]).disk
            ["data", ".locks", "users.lock"] = none := by
  have distinct : ∀ operation ∈ [Operation.insert (.ofString "users") ada,
      .insert (.ofString "users") ada], operation.Distinct := by
    simpa [Operation.Distinct] using distinct_ada
  obtain ⟨_, _, _, _, noLock, _⟩ := Session.tree_of_history opened_newSession distinct
  exact ⟨opened_newSession, distinct, noLock ["users.lock"] (by simp)⟩

end DocStore.Database
