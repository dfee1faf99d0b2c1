import DocStore.Proofs.Database.Beginnings
import DocStore.Proofs.Database.Sparing
import DocStore.Proofs.Files.Keys
/-!
# Operations over a healthy storage

A database is open over a root that is a directory, or one that is yet to be made (`Houses`).  Over
a healthy storage an operation that fails has changed nothing but what there is about locks
(`Session.perform_spares`): it is refused before it asks for anything, or it holds the lock of its
collection for all that it does (`Session.Guards`).  Two operations that tell that there was nothing
to be removed have changed nothing either, and they tell so exactly when it is so
(`Session.drops_collection`, `Session.removes_document`).  What is read tells what is stored
(`Session.finds_document`, `Session.finds_first`).
-/

set_option autoImplicit false

namespace DocStore

open Disk (Branch Path Place Shows Unmade Vacant)
open FileStore (Furnished Healthy hasCollection)
open Files (Named keyName)
open Host (Machine)

/-- A root with a branch below it, or a root that is yet to be made. -/
inductive Disk.Houses (root : Path) : Branch → Disk → Prop
  | made {origin disk : Disk} {home : Place} {view : Branch} (vacant : Vacant origin root home)
      (shows : Shows origin home view disk) : Houses root view disk
  | unmade {disk : Disk} {home : Place} (unmade : Unmade disk root home) :
      Houses root (fun _ => none) disk

open Disk (Houses)

/-- An action ends with a result and a branch below a root that go together, and leaves no lock. -/
def Host.Leaves {α : Type} (root : Path) (action : Host.Action α) (machine : Machine)
    (holds : Except Failure α → Branch → Prop) : Prop :=
  ∃ view', Houses root view' (machine.eval action).2.disk ∧ Unlocked (locksOf view')
    ∧ holds (machine.eval action).1 view'

namespace Database.Session

open Host (Leaves)

/-- An operation is refused before it asks for anything, or it works while it holds the lock of a
collection.  What there was then, its result and what there is then go together. -/
inductive Guards {α : Type} (session : Session) (store : FileStore)
    (generator : Nat → Identifier.Generated) (view : Branch)
    (ends : Branch → Except Failure α → Branch → Prop) : Action α → Prop
  | refused {failure : Failure} (held : ends view (.error failure) view) :
      Guards session store generator view ends (Attempt.ofExcept (.error failure))
  | holding {name : String} {body : Action α} (named : Named name)
      (works : ∀ {origin : Disk} {home : Place}, Vacant origin store.root home →
        ∀ locked, Alike view locked →
          session.EndsAlone origin home generator name locked body (ends locked)) :
      Guards session store generator view ends (Database.holding name body)

section

variable {α : Type} {session : Session} {store : FileStore}
  (isBackend : session.backend = .files store) {generator : Nat → Identifier.Generated}
  {view : Branch} {ends : Branch → Except Failure α → Branch → Prop} {action : Action α}

/-- What is known without asking is settled first. -/
theorem Guards.ofExcept_bind {β : Type} {result : Except Failure β} {next : β → Action α}
    (goesOn : ∀ value, result = .ok value →
      Guards session store generator view ends (next value))
    (fails : ∀ failure, ends view (.error failure) view) :
    Guards session store generator view ends (Attempt.ofExcept result >>= next) := by
  cases result with
  | ok value => exact goesOn value rfl
  | error failure => exact .refused (fails failure)

include isBackend

/-- **An operation that holds a lock** leaves no lock behind. -/
theorem Guards.leaves (guards : Guards session store generator view ends action) {machine : Machine}
    (houses : Houses store.root view machine.disk) (isGenerator : machine.generator = generator)
    (unlocked : Unlocked (locksOf view)) :
    Leaves store.root (session.run action) machine fun result view' =>
      ∃ locked locked', Alike view locked ∧ ends locked result locked' ∧ Alike locked' view' := by
  rw [Leaves, eval_run]
  cases guards with
  | refused held => exact ⟨view, houses, unlocked, view, view, .refl view, held, .refl view⟩
  | @holding name body named works =>
      have holds {origin : Disk} {home : Place} (vacant : Vacant origin store.root home)
          {machine : Machine} (shows : Shows origin home view machine.disk)
          (isGenerator : machine.generator = generator) :
          ∃ view', Houses store.root view'
              (Attempt.eval session.answer (Database.holding name body) machine).2.disk
            ∧ Unlocked (locksOf view') ∧ ∃ locked locked', Alike view locked
              ∧ ends locked (Attempt.eval session.answer (Database.holding name body) machine).1 locked'
              ∧ Alike locked' view' := by
        obtain ⟨handle, taken, locked, takes, same, showsLocked, held, alike⟩ :=
          locks vacant isBackend named shows unlocked
        obtain ⟨locked', finds, differ, ended⟩ :=
          works vacant locked alike taken ⟨same.generator.trans isGenerator, showsLocked⟩
        obtain ⟨last, view', gives, _, showsLast, unlocked', alike'⟩ :=
          unlocks vacant isBackend named handle finds.shows
            ((differ.locks named.ne_lockDirectory).symm ▸ held)
        have step : Attempt.eval session.answer (Database.lock name) machine
            = (.ok ⟨name, some handle⟩, taken) := takes
        have gives' : Attempt.eval session.answer (Database.unlock ⟨name, some handle⟩)
            (Attempt.eval session.answer body taken).2 = (.ok (), last) := gives
        rw [Database.holding, Attempt.eval_bind_ok step, Attempt.eval_andFinally_ok _ gives']
        exact ⟨view', .made vacant showsLast, unlocked', locked, locked', alike, ended, alike'⟩
      cases houses with
      | made vacant shows => exact holds vacant shows isGenerator
      | unmade unmade =>
          obtain ⟨disk, vacant, locks⟩ := lock_unmade isBackend unmade
          have starts : Attempt.eval session.answer (Database.lock name) machine
              = Attempt.eval session.answer (Database.lock name) { machine with disk } :=
            locks name named
          rw [Database.holding, Attempt.eval_bind_congr starts]
          have made : Shows disk _ (fun _ => none) (Machine.disk { machine with disk }) :=
            vacant.shows
          exact holds vacant made isGenerator

end

/-! ## Operations that change a collection -/

section

variable {session : Session} {store : FileStore} (isBackend : session.backend = .files store)
  {generator : Nat → Identifier.Generated} {view : Branch} (healthy : Healthy view)
include isBackend healthy

theorem guards_drop {collection : Caller.Value} {name : String}
    (isName : checkedName collection = .ok name) :
    Guards session store generator view
      (fun before result after => result = .ok (hasCollection before name)
        ∧ (hasCollection before name = false → after = before))
      (Database.perform (.dropCollection collection)) := by
  have named := named_of_checkedName isName
  rw [Database.perform, Database.named, isName]
  exact .holding named fun vacant _ alike =>
    endsAlone_drop isBackend vacant named (healthy.alike alike)

theorem guards_removeById {collection id : Caller.Value} {name : String}
    (isName : checkedName collection = .ok name) {key : String}
    (isId : Identifier.ofValue id = .ok key) :
    Guards session store generator view
      (fun before result after => ∃ count, result = .ok count
        ∧ (count = 0 ↔ before [name, "docs", keyName key] = none) ∧ (count = 0 → after = before))
      (Database.perform (.removeOneById collection id)) := by
  have named := named_of_checkedName isName
  rw [Database.perform, Database.named, isName]
  show Guards session store generator view _
    (Attempt.ofExcept (Identifier.ofValue id) >>= fun id => Documents.removeById name id)
  rw [isId]
  exact .holding named fun vacant _ alike =>
    endsAlone_removeById isBackend vacant named (healthy.alike alike) key

/-- **An operation that may change a collection** and fails has changed nothing. -/
theorem guards_perform (usable : ∀ call, ∃ id, Identifier.check (generator call) = .ok id)
    {operation : Operation} {collection : Caller.Value}
    (changes : operation.changed? = some collection) :
    Guards session store generator view SparesAll (Database.perform operation) := by
  have sparesAlways {α : Type} (failure : Failure) :
      SparesAll view (.error failure : Except Failure α) view := fun _ _ => rfl
  have underLock {α : Type} {body : String → Action α}
      (works : ∀ name, Named name → ∀ {origin : Disk} {home : Place},
        Vacant origin store.root home → ∀ locked, Healthy locked →
          session.EndsAlone origin home generator name locked (body name) (SparesAll locked)) :
      Guards session store generator view SparesAll
        (named collection fun name => Database.holding name (body name)) :=
    .ofExcept_bind (fun name isName => .holding (named_of_checkedName isName)
      fun vacant locked alike => works name (named_of_checkedName isName) vacant locked
        (healthy.alike alike)) sparesAlways
  cases operation with
  | listCollections | collectionExists | find | findOne | findOneById | count | listConstraints =>
      cases changes
  | createCollection _ =>
      cases changes
      refine underLock fun name named _ _ vacant locked healthy => ?_
      refine (endsAlone_create isBackend vacant named healthy).mono fun _ _ _ ⟨_, isOk, _⟩ => ?_
      rw [isOk]
      exact sparesAll_ok
  | dropCollection _ =>
      cases changes
      refine underLock fun name named _ _ vacant locked healthy => ?_
      refine (endsAlone_drop isBackend vacant named healthy).mono fun _ _ _ ⟨isOk, _⟩ => ?_
      rw [isOk]
      exact sparesAll_ok
  | insert _ document =>
      cases changes
      refine .ofExcept_bind (fun name isName => .ofExcept_bind (fun fields _ => ?_) sparesAlways)
        sparesAlways
      have named := named_of_checkedName isName
      exact .holding named fun vacant locked alike =>
        endsAlone_insert isBackend vacant named usable (healthy.alike alike) fields
  | save _ document =>
      cases changes
      refine .ofExcept_bind (fun name isName => .ofExcept_bind (fun fields _ => ?_) sparesAlways)
        sparesAlways
      have named := named_of_checkedName isName
      exact .holding named fun vacant locked alike =>
        endsAlone_save isBackend vacant named usable (healthy.alike alike) fields
  | remove _ query | removeOne _ query =>
      cases changes
      refine .ofExcept_bind (fun name isName => .ofExcept_bind (fun query _ => ?_) sparesAlways)
        sparesAlways
      have named := named_of_checkedName isName
      exact .holding named fun vacant locked alike =>
        endsAlone_remove isBackend vacant named (healthy.alike alike) query (by simp)
  | removeOneById _ id =>
      cases changes
      refine .ofExcept_bind (fun name isName => .ofExcept_bind (fun key _ => ?_) sparesAlways)
        sparesAlways
      have named := named_of_checkedName isName
      refine .holding named fun vacant locked alike =>
        (endsAlone_removeById isBackend vacant named (healthy.alike alike) key).mono
          fun _ _ _ ⟨_, isOk, _⟩ => ?_
      rw [isOk]
      exact sparesAll_ok
  | addConstraint _ spec =>
      cases changes
      exact underLock fun name named _ _ vacant locked healthy =>
        endsAlone_add isBackend vacant named healthy spec
  | removeConstraint _ spec =>
      cases changes
      exact underLock fun name named _ _ vacant locked healthy =>
        endsAlone_removeConstraints isBackend vacant named healthy spec

end

/-! ## What comes of operations -/

section

variable {session : Session} {store : FileStore} (isBackend : session.backend = .files store)
  {view : Branch} (healthy : Healthy view) {machine : Machine}
  (houses : Houses store.root view machine.disk)
include isBackend healthy houses

section

variable (unlocked : Unlocked (locksOf view))
include unlocked

/-- **An operation that fails** has changed nothing. -/
theorem perform_spares
    (usable : ∀ call, ∃ id, Identifier.check (machine.generator call) = .ok id)
    (operation : Operation) :
    Leaves store.root (session.perform operation) machine fun result view' =>
      ∀ failure, result = .error failure → Alike view view' := by
  cases changes : operation.changed? with
  | none =>
      have same : (machine.eval (session.perform operation)).2 = machine :=
        session.attempt_reads machine changes
      rw [Leaves, same]
      exact ⟨view, houses, unlocked, fun _ _ => .refl view⟩
  | some collection =>
      obtain ⟨view', houses', unlocked', locked, locked', alike, spares, alike'⟩ :=
        (guards_perform isBackend healthy usable changes).leaves isBackend houses rfl unlocked
      refine ⟨view', houses', unlocked', fun failure fails => ?_⟩
      rw [← spares failure fails] at alike
      exact alike.trans alike'

/-- **A collection is dropped** exactly when there is one. -/
theorem drops_collection {collection : Caller.Value} {name : String}
    (isName : checkedName collection = .ok name) :
    Leaves store.root (session.perform (.dropCollection collection)) machine fun result view' =>
      result = .ok (hasCollection view name)
        ∧ (hasCollection view name = false → Alike view view') := by
  have noLock := (named_of_checkedName isName).ne_lockDirectory
  obtain ⟨view', houses', unlocked', locked, locked', alike, ⟨dropped, spares⟩, alike'⟩ :=
    (guards_drop isBackend healthy isName).leaves isBackend houses rfl unlocked
  have same : hasCollection locked name = hasCollection view name := by
    rw [hasCollection, hasCollection, alike.cons noLock, alike.cons noLock]
  rw [same] at dropped spares
  refine ⟨view', houses', unlocked', dropped, fun missing => ?_⟩
  rw [← spares missing] at alike
  exact alike.trans alike'

/-- **A document is removed** exactly when one is stored under its identifier, as far as the digest
tells the identifiers apart. -/
theorem removes_document {collection id : Caller.Value} {name : String}
    (isName : checkedName collection = .ok name) {key : String}
    (isId : Identifier.ofValue id = .ok key) :
    Leaves store.root (session.perform (.removeOneById collection id)) machine fun result view' =>
      ∃ count, result = .ok count ∧ (count = 0 → Alike view view')
        ∧ (Files.Apart (insert key (FileStore.idsOf view name)) →
          (count = 0 ↔ key ∉ FileStore.idsOf view name)) := by
  have noLock := (named_of_checkedName isName).ne_lockDirectory
  obtain ⟨view', houses', unlocked', locked, locked', alike, ⟨count, counts, isZero, spares⟩,
    alike'⟩ := (guards_removeById isBackend healthy isName isId).leaves isBackend houses rfl unlocked
  refine ⟨view', houses', unlocked', count, counts, fun none => ?_, fun apart => ?_⟩
  · rw [← spares none] at alike
    exact alike.trans alike'
  · rw [isZero, alike.cons noLock, healthy.no_file_iff noLock (Files.keyName_injOn apart)]

end

/-! ### What is read -/

/-- What is read of a collection if it exists is read while nothing changes; where the root is yet to
be made there is no collection. -/
theorem reads_if_exists {α : Type} {name : String} (named : Named name) {body : Action α}
    {other : α} {holds : α → Prop}
    (missing : (∀ rest, view (name :: rest) = none) → holds other)
    (works : Furnished view name → ∀ {origin : Disk} {home : Place},
      Vacant origin store.root home →
        session.EndsAlone origin home machine.generator name view body fun result _ =>
          ∃ value, result = .ok value ∧ holds value) :
    ∃ value, (Attempt.eval session.answer (do
        if ← Database.store (.exists name) then body else return other) machine).1 = .ok value
      ∧ holds value := by
  cases houses with
  | @made origin _ home _ vacant shows =>
      have reads : session.EndsAlone origin home machine.generator name view (do
          if ← Database.store (.exists name) then body else return other) fun result _ =>
            ∃ value, result = .ok value ∧ holds value := by
        refine .bind_ok (endsAlone_exists isBackend vacant named healthy) fun exist view' known => ?_
        obtain ⟨isThere, rfl⟩ := known
        cases exist with
        | true => exact works (healthy.furnished named.ne_lockDirectory isThere.symm) vacant
        | false =>
            exact .pure ⟨other, rfl, missing (healthy.missing named.ne_lockDirectory isThere.symm)⟩
      obtain ⟨_, _, _, held⟩ := reads machine ⟨rfl, shows⟩
      exact held
  | unmade unmade =>
      have asked : Attempt.eval session.answer (Database.store (.exists name)) machine
          = (.ok false, machine) := by
        show machine.run
          (session.meaning (.store (Storage.Op.exists (show Content.json.Key from name))))
            = (.ok false, machine)
        rw [meaning, isBackend]
        exact FileStore.reads_unmade unmade trivial named
      exact ⟨other, congrArg Prod.fst (Attempt.eval_bind_ok asked), missing fun _ => rfl⟩

/-- **A document is found** exactly when one is stored under its identifier. -/
theorem finds_document {collection id : Caller.Value} {name : String}
    (isName : checkedName collection = .ok name) {key : String}
    (isId : Identifier.ofValue id = .ok key) :
    ∃ found, (machine.eval (session.perform (.findOneById collection id))).1 = .ok found
      ∧ (found = none ↔ key ∉ FileStore.idsOf view name) := by
  have named := named_of_checkedName isName
  have action : Database.perform (.findOneById collection id) = Documents.findById name key := by
    rw [Database.perform, Database.named, isName]
    show (Attempt.ofExcept (Identifier.ofValue id) >>= fun id => Documents.findById name id) = _
    rw [isId]
    rfl
  rw [Session.perform, eval_run, action]
  refine reads_if_exists isBackend healthy houses named (fun missing => ?_)
    fun _ _ _ vacant => endsAlone_store isBackend fun _ _ => ?_
  · refine iff_of_true rfl fun isStored => ?_
    obtain ⟨document, ⟨file, _, _, isFile, _⟩, _⟩ := isStored
    rw [missing] at isFile
    cases isFile
  · obtain ⟨found, gets, missing⟩ := healthy.get vacant (Set.mem_univ name) named key
    exact ⟨.ok found, gets.mono fun _ same => same ▸ ⟨.refl name view, found, rfl, missing⟩⟩

/-- **A first document is found** exactly when one is stored that contains the query. -/
theorem finds_first {collection query : Caller.Value} {cursor : Cursor}
    (isCursor : cursorOf collection query = .ok cursor) :
    ∃ found, (machine.eval (session.perform (.findOne collection query))).1 = .ok found
      ∧ (found = none ↔ ∀ document, FileStore.Stores view cursor.collection document →
        Json.contains document cursor.query = false) := by
  have named := named_of_cursorOf isCursor
  have scans : ∃ documents,
      (Attempt.eval session.answer (Documents.scan cursor.collection cursor.query) machine).1
        = .ok documents
      ∧ ∀ document, document ∈ documents ↔ FileStore.Stores view cursor.collection document
        ∧ Json.contains document cursor.query = true := by
    refine reads_if_exists isBackend healthy houses named (fun missing document => ?_)
      fun furnished _ _ vacant => endsAlone_store isBackend fun _ shows => ?_
    · refine iff_of_false List.not_mem_nil fun ⟨stored, _⟩ => ?_
      obtain ⟨file, _, _, isFile, _⟩ := stored
      rw [missing] at isFile
      cases isFile
    · obtain ⟨documents, scans, each⟩ := healthy.scan vacant (Set.mem_univ _) named shows furnished
        fun document => Json.contains document cursor.query
      exact ⟨.ok documents, scans.mono fun _ same => same ▸ ⟨.refl _ view, documents, rfl, each⟩⟩
  obtain ⟨documents, isScan, each⟩ := scans
  refine ⟨documents.head?, ?_, ?_⟩
  · rw [Session.perform, eval_run, Database.perform, cursor_eq, isCursor]
    show (Attempt.eval session.answer (Documents.scan cursor.collection cursor.query >>=
      fun documents => pure documents.head?) machine).1 = _
    rw [Attempt.eval_bind, isScan]
    rfl
  · rw [List.head?_eq_none_iff, List.eq_nil_iff_forall_not_mem]
    refine forall_congr' fun document => ?_
    rw [each, not_and, Bool.not_eq_true]

end

end Database.Session

end DocStore
