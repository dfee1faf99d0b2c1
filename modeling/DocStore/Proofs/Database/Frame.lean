import DocStore.Proofs.Database.Changes
import DocStore.Proofs.Database.Protocol
import DocStore.Proofs.Database.Beginnings
import DocStore.Proofs.Files.Reach
/-!
# What operations leave alone

Whatever an operation is given, it leaves alone what it is not about.  In what the database reports
(`Operation.Spares`) these are all other collections, the constraints when it is about documents and
the documents when it is about constraints; what removes something creates no collection, and what
reads changes nothing.  On the disk (`Session.reaches_after`) an operation changes what belongs to
its own collection and hidden names that nobody has used, besides making the root and the directory
of the lock files.  `Session.Begins.spares` says all of this of every operation after any others.
-/

set_option autoImplicit false

namespace DocStore

open Disk (Place Unmade Vacant)
open Files (Named)
open Host (Machine Touches)

namespace Database

/-! ## What is reported -/

/-- What an operation leaves alone of what a database reports. -/
structure Operation.Spares (operation : Operation) (before after : Contents) : Prop where
  elsewhere : ∀ name, ¬ operation.Changes name →
    after.documents name = before.documents name
      ∧ after.constraints name = before.constraints name
      ∧ (name ∈ after.collections ↔ name ∈ before.collections)
  constraints : operation.kind = .writes ∨ operation.kind = .removes →
    after.constraints = before.constraints
  documents : operation.kind = .adds ∨ operation.kind = .subtracts →
    after.documents = before.documents
  collections : operation.kind = .removes ∨ operation.kind = .subtracts →
    after.collections = before.collections

section

variable {keeper : Keeper} {generator : Nat → Identifier.Generated} {state : Cabinet × Nat}
  {operation : Operation}

/-- **What an operation leaves alone** of what a storage keeps. -/
theorem Operation.spares_outcome (distinct : operation.Distinct) :
    operation.Spares (.ofKeeper keeper state.1)
      (.ofKeeper keeper (outcome keeper generator operation state).2.1) := by
  have documents {name : String}
      (same : ((outcome keeper generator operation state).2.1.held name).documents
        = (state.1.held name).documents) :
      (Contents.ofKeeper keeper (outcome keeper generator operation state).2.1).documents name
        = (Contents.ofKeeper keeper state.1).documents name := by
    simp only [Contents.ofKeeper, listing, keeper.order_congr same]
  have constraints {name : String}
      (same : ((outcome keeper generator operation state).2.1.held name).checks
        = (state.1.held name).checks) :
      (Contents.ofKeeper keeper (outcome keeper generator operation state).2.1).constraints name
        = (Contents.ofKeeper keeper state.1).constraints name := by
    simp only [Contents.ofKeeper, Cabinet.active, same]
  refine ⟨fun name elsewhere => ?_, fun kind => ?_, fun kind => ?_, fun kind => ?_⟩
  · have same : (outcome keeper generator operation state).2.1.drawer? name = state.1.drawer? name :=
      drawer?_outcome distinct elsewhere
    have held : (outcome keeper generator operation state).2.1.held name = state.1.held name := by
      rw [Cabinet.held, Cabinet.held, same]
    refine ⟨documents (congrArg _ held), constraints (congrArg _ held), ?_⟩
    rw [mem_collections_iff, mem_collections_iff, same]
  · funext name
    refine constraints (checks_outcome distinct ?_ ?_ ?_ name) <;>
      rcases kind with kind | kind <;> rw [kind] <;> decide
  · funext name
    refine documents (documents_outcome_eq distinct ?_ ?_ ?_ name) <;>
      rcases kind with kind | kind <;> rw [kind] <;> decide
  · simp only [Contents.ofKeeper, collections_outcome distinct kind]

end

/-! ## What is changed on the disk -/

namespace Session

section

variable {session : Session} {setting : Setting} {store : FileStore}
  (joins : session.Joins setting store) {operation : Operation} (distinct : operation.Distinct)
include joins

/-- What only reads only looks at the disk. -/
theorem looks_perform (reads : operation.changed? = none) :
    (session.perform operation).toProgram.Asks Host.Request.Looks := by
  refine Program.Asks.interpret (perform_reads reads) fun request isRead => ?_
  cases request with
  | store op =>
      show (Session.store session.number op session.backend).Asks _
      rw [joins.isBackend]
      exact store.looks_perform isRead.1
  | lock _ | unlock _ | tell _ | generate | giveWay => exact isRead.elim

include distinct

/-- **An operation by a database that works alone** reaches what is its own, and leaves the root to
whoever comes next. -/
theorem reaches_perform {machine : Machine}
    (works : ∀ name, Works setting store.root name machine .outside machine) :
    (∀ place before after, Touches place before after (session.perform operation).toProgram machine →
        ∃ name, operation.Changes name ∧ Reaches setting.home name machine place before after)
      ∧ ∀ name, Works setting store.root name
        (machine.attempt (session.perform operation)).2 .outside
        (machine.attempt (session.perform operation)).2 := by
  cases changes : operation.changed? with
  | none =>
      rw [session.attempt_reads machine changes]
      exact ⟨fun _ _ _ touches =>
        absurd touches (Touches.not_of_looks (looks_perform joins changes)), works⟩
  | some collection =>
      have locks := perform_locks changes distinct
      cases isName : checkedName collection with
      | error failure =>
          rw [Session.perform]
          generalize Database.perform operation = action at locks
          cases locks with
          | refused => exact ⟨fun _ _ _ touches => (by cases touches), works⟩
          | holding isOther => cases isName.symm.trans isOther
      | ok name =>
          have obeys : Obeys setting store.root name
              (Ended setting store name (Database.perform operation)) .outside
              (session.perform operation).toProgram :=
            run_obeys joins locks fun other isOther => Except.ok.inj (isOther.symm.trans isName)
          refine ⟨fun place before after touches => ⟨name, ⟨collection, changes, isName⟩,
            (works name).reaches joins.vacant joins.usual obeys touches⟩, ?_⟩
          obtain ⟨stage, works', ended⟩ := (works name).run joins.vacant joins.usual obeys
          refine works'.rest fun tenure isHolding => ?_
          subst isHolding
          cases ended

end

/-! ## After any operations -/

section

variable {session : Session} {machine : Machine} {keeper : Keeper} {operations : List Operation}
  (distinct : ∀ operation ∈ operations, operation.Distinct)

/-- A database that works alone goes on below its root. -/
theorem works_after {setting : Setting} {store : FileStore} (joins : session.Joins setting store)
    (works : ∀ name, Works setting store.root name machine .outside machine)
    (distinct : ∀ operation ∈ operations, operation.Distinct) (name : String) :
    Works setting store.root name (session.after machine operations) .outside
      (session.after machine operations) := by
  induction operations using List.reverseRecOn generalizing name with
  | nil => exact works name
  | append_singleton before operation ih =>
      rw [after_concat]
      exact (reaches_perform joins (distinct operation (by simp)) fun name =>
        ih (fun other member => distinct other (List.mem_append_left _ member)) name).2 name

/-- **How far operations reach** on a disk, when they begin below a root that is empty or is yet to
be made. -/
theorem reaches_after {store : FileStore} {home : Place} (isBackend : session.backend = .files store)
    (blank : store.layout.Blank)
    (empty : Vacant machine.disk store.root home ∨ Unmade machine.disk store.root home)
    (distinct : ∀ operation ∈ operations, operation.Distinct) {operation : Operation}
    (distinct' : operation.Distinct) {place : Place} {before after : Option Disk.Entry}
    (touches : Touches place before after (session.perform operation).toProgram
      (session.after machine operations)) :
    ∃ name, operation.Changes name
      ∧ Reaches home name (session.after machine operations) place before after := by
  obtain ⟨origin, vacant, works⟩ := Works.exists_begin home machine empty
    (Set.mem_singleton store.layout)
  have joins : session.Joins ⟨origin, home, {store.layout}, machine.generator⟩ store :=
    ⟨isBackend, vacant, Set.mem_singleton _, fun _ same => Set.mem_singleton_iff.mp same ▸ blank⟩
  exact (reaches_perform joins distinct' (works_after joins works distinct)).1 place before after
    touches

/-- **What an operation leaves alone** that is done at a machine, by a database that began at
another one. -/
structure Spares (session : Session) (begun machine : Machine) (operation : Operation) : Prop where
  reports : ∃ before after, session.Reports machine before
    ∧ session.Reports (machine.attempt (session.perform operation)).2 after
    ∧ operation.Spares before after
  reads : operation.changed? = none → (machine.attempt (session.perform operation)).2 = machine
  reaches : ∀ store home, session.backend = .files store →
    Vacant begun.disk store.root home ∨ Unmade begun.disk store.root home →
    ∀ place before after,
      Touches place before after (session.perform operation).toProgram machine →
      ∃ name, operation.Changes name ∧ Reaches home name machine place before after
  apart : ∀ home name other, Collection.nameFault? name = none →
    Collection.nameFault? other = none → name ≠ other →
    Disjoint (estate home name) (estate home other)

variable (begins : session.Begins machine keeper)
include begins

theorem Begins.blank {store : FileStore} (isBackend : session.backend = .files store) :
    store.layout.Blank := by
  cases begins with
  | fresh fresh =>
      cases fresh with
      | memory backend => exact nomatch backend.symm.trans isBackend
      | files opened =>
          cases opened.backend.symm.trans isBackend
          exact opened.blank
  | unmade backend blank =>
      cases backend.symm.trans isBackend
      exact blank

/-- **Every operation, after any others,** leaves alone what it is not about, over either storage,
whatever it is given. -/
theorem Begins.spares (distinct : ∀ operation ∈ operations, operation.Distinct)
    {operation : Operation} (distinct' : operation.Distinct) :
    session.Spares machine (session.after machine operations) operation where
  reports := ⟨_, _, begins.reports distinct, begins.reports_concat distinct operation distinct',
    operation.spares_outcome distinct'⟩
  reads := session.attempt_reads _
  reaches _ _ isBackend empty _ _ _ :=
    reaches_after isBackend (begins.blank isBackend) empty distinct distinct'
  apart home _ _ isName isOther := disjoint_estate home (Files.named_of_nameFault? isName)
    (Files.named_of_nameFault? isOther)

end

end Session

/-- A document whose identifier looks like a path to another collection. -/
def intruder : Caller.Value :=
  .object false [("_id", .ofString "../../others/docs/intruder")]

/-- The document is kept in its own collection, and all others are left alone. -/
theorem intruder_spares_others :
    newSession.Begins Machine.start (.files newStore)
      ∧ (∀ operation ∈ [Operation.insert (.ofString "others") ada], operation.Distinct)
      ∧ (Operation.insert (.ofString "users") intruder).Distinct
      ∧ newSession.Spares Machine.start
        (newSession.after Machine.start [.insert (.ofString "others") ada])
        (.insert (.ofString "users") intruder) := by
  have distinct : ∀ operation ∈ [Operation.insert (.ofString "others") ada],
      operation.Distinct := by
    simpa [Operation.Distinct] using distinct_ada
  have distinct' : (Operation.insert (.ofString "users") intruder).Distinct :=
    .object (by decide) (by simpa using Caller.Value.distinct_ofString "../../others/docs/intruder")
  exact ⟨begins_start, distinct, distinct', begins_start.spares distinct distinct'⟩

end Database

end DocStore
