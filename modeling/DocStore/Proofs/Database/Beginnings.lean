import DocStore.Proofs.Database.Histories
import DocStore.Proofs.Database.Reads
import DocStore.Proofs.Disk.Unmade
/-!
# How databases begin

A database begins without collections: in memory, in an empty directory, or at a root that is yet to
be made (`Session.Begins`).  From there on it goes through the states that the outcomes of its
operations tell, whichever way it has begun (`Session.Begins.attempt_eq`).  The relation that
carries the induction is `Session.Stands`, which says how a machine stands for a state of the
storage, and `Session.Stands.attempt` is its step.

Nobody tells a root that is yet to be made from an empty one: reading finds nothing either way
(`FileStore.reads_unmade`), and whoever takes a lock makes the root first
(`Session.lock_unmade`).
-/

set_option autoImplicit false

namespace DocStore

open Disk (Path Place Plain Unmade Vacant)
open Files (Named)
open Host (Action Machine)

/-! ## Reading where the root is missing -/

namespace FileStore

/-- **Where the root is missing** reading finds what an empty cabinet holds. -/
theorem reads_unmade {store : FileStore} {home : Place} {machine : Machine}
    (unmade : Unmade machine.disk store.root home) {op : Storage.Op .json} (reads : op.Reads)
    (fits : op.Fits) :
    machine.eval (store.perform op) = ((Cabinet.perform store Memory.empty op).1, machine) := by
  have inCollection {name : String} (named : Named name) {part : String} (isPart : isPart part) :
      ∀ other ∈ [name] ++ [part], Plain other := fun other member =>
    named.plain_names isPart isPart.stored other (List.mem_append_left _ member)
  have file {name : String} (named : Named name) (key : String) :
      ∀ other ∈ [name, "docs"] ++ [Files.keyName key], Plain other :=
    named.plain_names (.inl rfl) (Files.stored_keyName key).plain
  cases op with
  | «exists» name =>
      have path : store.documentsPath name = store.root.trimmed ++ ([name] ++ ["docs"]) :=
        partPath_eq unmade.resolved fits "docs"
      show machine.eval (Files.isDirectory (store.documentsPath name)) = (.ok false, machine)
      rw [path]
      exact Machine.eval_tryCall_bind machine (congrArg machine.disk.reading
        (unmade.status (inCollection fits (.inl rfl)) (show 2 ≤ 3 by decide))) rfl
  | collections =>
      have lists : machine.eval (Files.listDirectories store.root) = (.ok [], machine) := by
        have nothing : machine.disk.list (store.root.trimmed ++ []) = .error .noEntry :=
          unmade.list (by simp) (Nat.zero_le _)
        rw [List.append_nil, unmade.trimmed_root] at nothing
        exact Files.eval_listEntries_missing nothing .directory
      exact (Attempt.eval_bind_ok lists).trans rfl
  | get name id =>
      have reading : machine.eval (Files.readDocument (store.documentPath name id))
          = (.ok none, machine) := by
        rw [documentPath, documentsPath, filePath_eq unmade.resolved fits (.inl rfl)]
        exact Machine.eval_tryCall_bind machine (congrArg machine.disk.reading
          (unmade.read (file fits id) (show 3 ≤ 3 by decide))) rfl
      have json : machine.eval (readJson (store.documentPath name id)) = (.ok none, machine) :=
        (Attempt.eval_bind_ok reading).trans rfl
      have document : machine.eval (readDocumentFile (store.documentPath name id))
          = (.ok none, machine) := (Attempt.eval_bind_ok json).trans rfl
      exact (Attempt.eval_bind_ok document).trans rfl
  | scan name query =>
      have identity : machine.eval (Files.directoryIdentity (store.documentsPath name))
          = (.ok none, machine) := by
        rw [documentsPath, partPath_eq unmade.resolved fits "docs"]
        exact Machine.eval_tryCall_bind machine (congrArg machine.disk.reading
          (unmade.status (inCollection fits (.inl rfl)) (show 2 ≤ 3 by decide))) rfl
      exact (Attempt.eval_bind_ok identity).trans rfl
  | checks name =>
      have lists : machine.eval (Files.listFiles (store.checksPath name) Files.storedEnding)
          = (.ok [], machine) := by
        rw [checksPath, partPath_eq unmade.resolved fits "constraints"]
        exact Files.eval_listFiles (Files.eval_listEntries_missing
          (unmade.list (inCollection fits (.inr rfl)) (show 2 ≤ 3 by decide)) .file) _
      exact (Attempt.eval_bind_ok lists).trans rfl
  | create | drop | put | replace | deleteMatching | deleteById | addCheck | dropCheck | close =>
      exact reads.elim

end FileStore

namespace Database

/-! ## Taking a lock where the root is missing -/

namespace Session

/-- Who takes a lock makes the root first, if it is missing. -/
theorem lock_unmade {session : Session} {store : FileStore} (backend : session.backend = .files store)
    {home : Place} {machine : Machine} (unmade : Unmade machine.disk store.root home) :
    ∃ disk, Vacant disk store.root home ∧ ∀ name, Named name →
      session.answer (.lock name) machine = session.answer (.lock name) { machine with disk } := by
  obtain ⟨disk, _, vacant, _, below⟩ := unmade.exists_vacant
  refine ⟨disk, vacant, fun name named => ?_⟩
  have path : (store.lockOf name).path
      = store.root.trimmed ++ ([lockDirectory] ++ [name ++ ".lock"]) :=
    FileStore.lockPath_eq unmade.resolved named
  have parent : (store.lockOf name).path.parent = store.root.trimmed ++ [lockDirectory] := by
    rw [path, ← List.append_assoc]
    exact Path.parent_concat (by simp) named.plain_lock.nonempty
  have made (failure : Disk.Obstacle → Failure) :
      machine.eval (Host.makeDirectories (store.root.trimmed ++ [lockDirectory]) failure)
        = Machine.eval (Host.makeDirectories (store.root.trimmed ++ [lockDirectory]) failure)
          { machine with disk } := by
    have makes := below lockDirectory (by decide)
    rw [Host.makeDirectories, Machine.eval, Machine.eval,
      Attempt.eval_bind_ok (Machine.eval_tryCall machine _),
      Attempt.eval_bind_ok (Machine.eval_tryCall { machine with disk } _), Disk.answer,
      Disk.answer, makes]
  have acquires : machine.eval (store.lockOf name).acquire
      = Machine.eval (store.lockOf name).acquire { machine with disk } := by
    rw [FileLock.acquire, parent, Machine.eval, Machine.eval,
      Attempt.eval_bind_ok (Machine.eval_now machine),
      Attempt.eval_bind_ok (Machine.eval_now { machine with disk })]
    exact Attempt.eval_bind_congr (made _)
  have takes : Program.run Machine.answer (takeFile (show Content.json.Key from name)
        session.backend) machine
      = Program.run Machine.answer (takeFile (show Content.json.Key from name) session.backend)
        { machine with disk } := by
    rw [backend]
    exact Program.run_bind_congr (store.lockOf name).acquire.toProgram acquires
  exact Program.run_bind_congr (takeFile (show Content.json.Key from name) session.backend) takes

/-! ## What a machine stands for -/

/-- A machine on which a database keeps what a state of its storage tells: in memory, below its
root, or nowhere while nothing is kept and the root is yet to be made. -/
inductive Stands (session : Session) (generator : Nat → Identifier.Generated) :
    Keeper → Cabinet × Nat → Machine → Prop where
  | memory {state : Cabinet × Nat} {machine : Machine} (backend : session.backend = .memory)
      (remembers : Remembers session.number generator state machine) :
      Stands session generator .memory state machine
  | files {store : FileStore} {origin : Disk} {home : Place} {state : Cabinet × Nat}
      {machine : Machine} (backend : session.backend = .files store) (blank : store.layout.Blank)
      (vacant : Vacant origin store.root home)
      (rests : Rests {store.layout} origin home generator Unlocked state machine) :
      Stands session generator (.files store) state machine
  | unmade {store : FileStore} {home : Place} {machine : Machine}
      (backend : session.backend = .files store) (blank : store.layout.Blank)
      (unmade : Unmade machine.disk store.root home) (isGenerator : machine.generator = generator) :
      Stands session generator (.files store) (Memory.empty, machine.calls) machine

section

variable {session : Session} {generator : Nat → Identifier.Generated} {keeper : Keeper}
  {state : Cabinet × Nat} {machine : Machine} {operation : Operation}

theorem Stands.calls (stands : session.Stands generator keeper state machine) :
    machine.calls = state.2 := by
  cases stands with
  | memory _ remembers => exact remembers.calls
  | files _ _ _ rests => exact rests.calls
  | unmade => rfl

theorem Stands.of_memory (stands : session.Stands generator keeper state machine)
    (isMemory : session.backend = .memory) :
    keeper = .memory ∧ machine.memories .json session.number = state.1 := by
  cases stands with
  | memory _ remembers => exact ⟨rfl, remembers.memory⟩
  | files backend | unmade backend => exact nomatch backend.symm.trans isMemory

theorem Stands.of_files (stands : session.Stands generator keeper state machine) {store : FileStore}
    (isFiles : session.backend = .files store) :
    keeper = .files store := by
  cases stands with
  | memory backend => exact nomatch backend.symm.trans isFiles
  | files backend | unmade backend =>
      cases backend.symm.trans isFiles
      rfl

/-- What is only read where the root is missing comes to what an empty cabinet tells. -/
theorem reads_unmade {store : FileStore} (backend : session.backend = .files store) {home : Place}
    (unmade : Unmade machine.disk store.root home) (isGenerator : machine.generator = generator)
    (reads : operation.changed? = none) :
    (machine.attempt (session.perform operation)).1
        = (outcome (.files store) generator operation (Memory.empty, machine.calls)).1
      ∧ (outcome (.files store) generator operation (Memory.empty, machine.calls)).2
        = (Memory.empty, machine.calls) := by
  rw [← eval_perform (.files store) generator Cabinet.slotted_empty operation,
    Machine.attempt_eq_eval, Session.perform, eval_run]
  have step : ∀ request : Request .json, request.Reads → ∀ (later : Machine) (state : Cabinet × Nat),
      later = machine ∧ state = (Memory.empty, machine.calls) →
      (session.answer request later).1 = (answerOfCabinet store generator request state).1
        ∧ (session.answer request later).2 = machine
        ∧ (answerOfCabinet store generator request state).2 = (Memory.empty, machine.calls) := by
    rintro request isRead later state ⟨rfl, rfl⟩
    cases request with
    | store op =>
        have run : session.answer (.store op) later
            = ((Cabinet.perform store Memory.empty op).1, later) := by
          rw [Session.answer, meaning, backend]
          exact FileStore.reads_unmade unmade isRead.1 isRead.2
        have nothing : (Cabinet.perform store Memory.empty op).2 = Memory.empty :=
          Cabinet.perform_reads store _ isRead.1
        rw [run]
        exact ⟨rfl, rfl, Prod.ext nothing rfl⟩
    | lock _ | unlock _ | tell _ | generate | giveWay => exact isRead.elim
  have agrees := Program.run_agrees step (perform_reads reads) ⟨rfl, rfl⟩
  exact ⟨agrees.1, agrees.2.2⟩

/-- **An operation goes from what a machine stands for** to what its outcome tells. -/
theorem Stands.attempt (stands : session.Stands generator keeper state machine)
    (slotted : state.1.Slotted keeper.slot) (distinct : operation.Distinct) :
    (machine.attempt (session.perform operation)).1 = (outcome keeper generator operation state).1
      ∧ session.Stands generator keeper (outcome keeper generator operation state).2
        (machine.attempt (session.perform operation)).2 := by
  have works {store : FileStore} {origin : Disk} {home : Place} {state : Cabinet × Nat}
      {machine : Machine} (backend : session.backend = .files store) (blank : store.layout.Blank)
      (vacant : Vacant origin store.root home) (slotted : state.1.Slotted Files.keyName)
      (rests : Rests {store.layout} origin home generator Unlocked state machine) :
      (machine.attempt (session.perform operation)).1
          = (outcome (.files store) generator operation state).1
        ∧ session.Stands generator (.files store)
          (outcome (.files store) generator operation state).2
          (machine.attempt (session.perform operation)).2 := by
    have blanks : ∀ layout ∈ ({store.layout} : Set Json.Layout), layout.Blank :=
      fun _ same => Set.mem_singleton_iff.mp same ▸ blank
    rw [← eval_perform (.files store) generator slotted]
    have agreed := agrees vacant backend (Set.mem_singleton _) blanks (perform_orderly distinct)
      rests
    exact ⟨agreed.1, .files backend blank vacant agreed.2⟩
  cases stands with
  | memory backend remembers =>
      rw [← eval_perform Keeper.memory generator slotted]
      have agreed := agrees_memory backend (Database.perform operation) remembers
      exact ⟨agreed.1, .memory backend agreed.2⟩
  | files backend blank vacant rests => exact works backend blank vacant slotted rests
  | @unmade store home _ backend blank unmade isGenerator =>
      cases changes : operation.changed? with
      | none =>
          have read := reads_unmade backend unmade isGenerator changes
          rw [session.attempt_reads machine changes, read.2]
          exact ⟨read.1, .unmade backend blank unmade isGenerator⟩
      | some collection =>
          have locks := perform_locks changes distinct
          have came := eval_perform (.files store) generator slotted operation
          rw [Machine.attempt_eq_eval, Session.perform, eval_run]
          generalize isAction : Database.perform operation = action at locks came
          cases locks with
          | refused failure =>
              rw [← came]
              exact ⟨rfl, .unmade backend blank unmade isGenerator⟩
          | @holding name body isName asks =>
              obtain ⟨disk, vacant, locks⟩ := lock_unmade backend unmade
              have starts : Attempt.eval session.answer (Database.lock name) machine
                  = Attempt.eval session.answer (Database.lock name) { machine with disk } :=
                locks name (named_of_checkedName isName)
              have rests : Rests {store.layout} disk home generator Unlocked
                  (Memory.empty, machine.calls) { machine with disk } :=
                ⟨isGenerator, rfl, _, _, unlocked_nothing, vacant.shows,
                  keeps_empty (Set.mem_singleton _)⟩
              have made := works backend blank vacant slotted rests
              rw [Machine.attempt_eq_eval, Session.perform, eval_run, isAction] at made
              rw [Database.holding, Attempt.eval_bind_congr starts]
              exact made

/-- A machine that stands for a state goes on through the states that operations lead to. -/
theorem Stands.after (stands : session.Stands generator keeper state machine)
    (slotted : state.1.Slotted keeper.slot) {operations : List Operation}
    (distinct : ∀ operation ∈ operations, operation.Distinct) :
    session.Stands generator keeper (reached keeper generator state operations)
      (session.after machine operations) := by
  induction operations using List.reverseRecOn with
  | nil => exact stands
  | append_singleton before operation ih =>
      have distinctBefore : ∀ other ∈ before, other.Distinct :=
        fun other member => distinct other (List.mem_append_left _ member)
      rw [reached_concat, after_concat]
      exact ((ih distinctBefore).attempt (slotted_reached slotted distinctBefore)
        (distinct operation (by simp))).2

/-! ## Beginnings -/

/-- A database that begins without collections, over one of the storages, whether or not there is a
root yet. -/
inductive Begins (session : Session) (machine : Machine) : Keeper → Prop where
  | fresh {keeper : Keeper} (fresh : session.Fresh machine keeper) : Begins session machine keeper
  | unmade {store : FileStore} {home : Place} (backend : session.backend = .files store)
      (blank : store.layout.Blank) (unmade : Unmade machine.disk store.root home) :
      Begins session machine (.files store)

variable (begins : session.Begins machine keeper)
include begins

theorem Begins.stands :
    session.Stands machine.generator keeper (Memory.empty, machine.calls) machine := by
  cases begins with
  | fresh fresh =>
      cases fresh with
      | memory backend empty => exact .memory backend ⟨rfl, rfl, empty⟩
      | files opened =>
          exact .files opened.backend opened.blank opened.vacant
            (rests_of_vacant opened.vacant (Set.mem_singleton _))
  | unmade backend blank unmade => exact .unmade backend blank unmade rfl

variable {operations : List Operation}
  (distinct : ∀ operation ∈ operations, operation.Distinct)
include distinct

/-- A machine stands for the state that operations lead to. -/
theorem Begins.after :
    session.Stands machine.generator keeper
      (reached keeper machine.generator (Memory.empty, machine.calls) operations)
      (session.after machine operations) :=
  begins.stands.after Cabinet.slotted_empty distinct

theorem Begins.calls_eq :
    (session.after machine operations).calls
      = (reached keeper machine.generator (Memory.empty, machine.calls) operations).2 :=
  (begins.after distinct).calls

/-- **What comes of an operation after others** is what its outcome says in the state that the
others lead to. -/
theorem Begins.attempt_eq (distinct' : operation.Distinct) :
    ((session.after machine operations).attempt (session.perform operation)).1
      = (outcome keeper machine.generator operation
          (reached keeper machine.generator (Memory.empty, machine.calls) operations)).1 :=
  ((begins.after distinct).attempt (slotted_reached Cabinet.slotted_empty distinct) distinct').1

end

end Session

/-! ## An empty disk -/

/-- On a new machine the root of the store is yet to be made. -/
theorem unmade_start : Unmade Machine.start.disk newStore.root ["data"] where
  resolved := .inr ⟨by decide, by decide⟩
  sound := Disk.sound_empty
  rooted := Disk.rooted_empty
  isPath := by decide
  room := by decide
  missing := ⟨[], [], "data", [], 0, rfl, rfl, rfl, by decide, rfl⟩

theorem begins_start : newSession.Begins Machine.start (.files newStore) :=
  .unmade rfl blank_newStore unmade_start

end Database

end DocStore

/-!
## What a database reports

A database reports its collections, and the documents and constraints of every collection, also of
one that does not exist, which has none.  `Session.Begins.reports` says that it does so at every
moment of a history, over either storage: it reports the contents of what the storage keeps
(`Contents.ofKeeper`).
-/

namespace DocStore

/-- A document and what is alike to it have the same identifier. -/
theorem Json.Alike.documentId?_eq {document document' : Json}
    (alike : Json.Alike document document') :
    FileStore.documentId? document = FileStore.documentId? document' := by
  have fields := alike.field? "_id"
  rw [FileStore.documentId?, FileStore.documentId?]
  generalize document.field? "_id" = field, document'.field? "_id" = field' at fields ⊢
  cases fields with
  | none => rfl
  | some inner => exact inner.string?_eq

namespace Database

open Files (Named)
open Host (Machine)

/-! ### Contents of a storage -/

/-- The contents of what a storage keeps. -/
def Contents.ofKeeper (keeper : Keeper) (cabinet : Cabinet) : Contents where
  collections := Sorting.sort Text.before (cabinet.collections.map Prod.fst)
  documents name := listing keeper name cabinet
  constraints := cabinet.active

section

variable {keeper : Keeper} {cabinet : Cabinet} (slotted : cabinet.Slotted keeper.slot)
  {name : String}

theorem mem_collections_iff :
    name ∈ (Contents.ofKeeper keeper cabinet).collections ↔ (cabinet.drawer? name).isSome := by
  rw [Contents.ofKeeper, (Sorting.sort_perm _ _).mem_iff, Option.isSome_iff_ne_none,
    Cabinet.drawer?, ne_eq, Lookup.lookup_eq_none_iff, not_not]

theorem mem_listing {document : Json} :
    document ∈ listing keeper name cabinet
      ↔ ∃ entry ∈ (cabinet.held name).documents, keeper.shown entry.2 = document := by
  rw [listing, List.mem_map]
  exact exists_congr fun entry => and_congr_left fun _ => (keeper.order_perm _).mem_iff

include slotted

/-- Every document that is kept has an identifier, which names its slot. -/
theorem of_mem_held {entry : String × Json} (inside : entry ∈ (cabinet.held name).documents) :
    ∃ id, FileStore.documentId? (keeper.shown entry.2) = some id
      ∧ FileStore.documentId? entry.2 = some id ∧ entry.2.WellFormed ∧ entry.1 = keeper.slot id := by
  obtain ⟨wellFormed, id, isId, isSlot⟩ := (slotted.held name).of_mem_documents inside
  exact ⟨id, (keeper.shown_alike wellFormed).documentId?_eq.symm.trans isId, isId, wellFormed, isSlot⟩

/-- Every document that is listed has an identifier, which names its slot. -/
theorem of_mem_listing {document : Json} (member : document ∈ listing keeper name cabinet) :
    ∃ id kept, FileStore.documentId? document = some id
      ∧ FileStore.documentId? kept = some id ∧ kept.WellFormed
      ∧ (cabinet.held name).documents.lookup (keeper.slot id) = some kept
      ∧ keeper.shown kept = document := by
  obtain ⟨⟨place, kept⟩, inside, rfl⟩ := mem_listing.mp member
  obtain ⟨id, isShownId, isId, wellFormed, rfl⟩ := of_mem_held slotted inside
  exact ⟨id, kept, isShownId, isId, wellFormed,
    (Lookup.lookup_eq_some_iff (slotted.held name).documentsDistinct).mpr inside, rfl⟩

/-- The slot of a document that is kept is that of the identifier which it is listed with. -/
theorem slot_of_mem_held {entry : String × Json} (inside : entry ∈ (cabinet.held name).documents) :
    (FileStore.documentId? (keeper.shown entry.2)).map keeper.slot = some entry.1 := by
  obtain ⟨id, isId, _, _, isSlot⟩ := of_mem_held slotted inside
  rw [isId, Option.map_some, isSlot]

/-- No two documents that are listed have the same identifier. -/
theorem nodup_ids_listing : ((listing keeper name cabinet).map FileStore.documentId?).Nodup := by
  refine .of_map (Option.map keeper.slot) ?_
  rw [listing, List.map_map, List.map_map]
  refine ((keeper.order_perm _).map _).nodup_iff.mpr ?_
  have slots : (cabinet.held name).documents.map
        (fun entry => (FileStore.documentId? (keeper.shown entry.2)).map keeper.slot)
      = ((cabinet.held name).documents.map Prod.fst).map some := by
    rw [List.map_map]
    exact List.map_congr_left fun entry inside => slot_of_mem_held slotted inside
  exact slots ▸ (slotted.held name).documentsDistinct.map (Option.some_injective _)

/-- No two active constraints have the same name. -/
theorem nodup_names_active : ((cabinet.active name).map Constraint.name).Nodup := by
  have active : (cabinet.active name).Perm ((cabinet.held name).checks.map Prod.snd) :=
    Sorting.sort_perm _ _
  refine ((active.map Constraint.name).nodup_iff).mpr (.of_map keeper.slot ?_)
  rw [List.map_map, List.map_map]
  have slots : (cabinet.held name).checks.map (fun entry => keeper.slot entry.2.name)
      = (cabinet.held name).checks.map Prod.fst :=
    List.map_congr_left fun entry inside => ((slotted.held name).of_mem_checks inside).symm
  exact slots ▸ (slotted.held name).checksDistinct

/-- The query of all documents drops none. -/
theorem filter_listing :
    ((listing keeper name cabinet).filter fun document => Json.contains document (.object []))
      = listing keeper name cabinet := by
  refine List.filter_eq_self.mpr fun document member => ?_
  obtain ⟨id, _, isId, _⟩ := of_mem_listing slotted member
  obtain ⟨fields, rfl⟩ := FileStore.exists_fields_of_documentId? isId
  rfl

end

/-! ### Reports -/

namespace Session

/-- What a database reports at a moment, about collections of every name. -/
structure Reports (session : Session) (machine : Machine) (contents : Contents) : Prop where
  collections : (machine.attempt (session.perform .listCollections)).1 = .ok contents.collections
  documents : ∀ name, Collection.nameFault? name = none →
    (machine.attempt (session.perform (.find (.ofString name) .absent))).1
      = .ok (contents.documents name)
  constraints : ∀ name, Collection.nameFault? name = none →
    (machine.attempt (session.perform (.listConstraints (.ofString name)))).1
      = .ok (contents.constraints name)

section

variable {session : Session} {machine : Machine} {keeper : Keeper}
  (begins : session.Begins machine keeper) {operations : List Operation}
  (distinct : ∀ operation ∈ operations, operation.Distinct)
include begins distinct

/-- **At every moment of a history** a database reports what its storage keeps. -/
theorem Begins.reports :
    session.Reports (session.after machine operations)
      (.ofKeeper keeper
        (reached keeper machine.generator (Memory.empty, machine.calls) operations).1) := by
  have slotted : (reached keeper machine.generator (Memory.empty, machine.calls) operations).1.Slotted
      keeper.slot := slotted_reached Cabinet.slotted_empty distinct
  have answers (operation : Operation) (isDistinct : operation.Distinct) :=
    begins.attempt_eq distinct isDistinct
  refine ⟨answers .listCollections trivial, fun name isName => ?_, fun name isName => ?_⟩
  · rw [answers (.find (.ofString name) .absent) trivial, outcome,
      cursorOf_all (Files.named_of_nameFault? isName)]
    exact congrArg Except.ok (filter_listing slotted)
  · rw [answers (.listConstraints (.ofString name)) trivial, outcome,
      checkedName_ofString (Files.named_of_nameFault? isName)]
    rfl

/-- One more operation leads to what its outcome keeps. -/
theorem Begins.reports_concat (operation : Operation) (isDistinct : operation.Distinct) :
    session.Reports ((session.after machine operations).attempt (session.perform operation)).2
      (.ofKeeper keeper (outcome keeper machine.generator operation
        (reached keeper machine.generator (Memory.empty, machine.calls) operations)).2.1) := by
  have all : ∀ other ∈ operations ++ [operation], other.Distinct := by
    intro other member
    rcases List.mem_append.mp member with earlier | last
    · exact distinct other earlier
    · exact List.mem_singleton.mp last ▸ isDistinct
  have reports := begins.reports all
  rwa [after_concat, reached_concat] at reports

end

end Session

end Database

end DocStore
