import DocStore.Proofs.Database.Histories
import DocStore.Proofs.Database.Protocol
import DocStore.Proofs.Files.Requests
import DocStore.Proofs.Files.Succession
import DocStore.Proofs.OneByOne
/-!
# Writes of several databases

Databases that have been opened over the same directory write into it, each with its own layout and
settings (`Job`).  One after another they come to what the outcomes of their operations say
(`Job.outcome`), and what a write comes to depends on its own collection alone
(`ComesTo.outcome_eq`).
-/

set_option autoImplicit false

namespace DocStore.Database

open Disk (Place)
open Files (Named)
open Host (Machine)

/-! ## Jobs -/

/-- An operation that a database over files is asked for. -/
structure Job where
  session : Session
  store : FileStore
  operation : Operation

/-- What an operation has told. -/
structure Reply where
  operation : Operation
  told : Except Failure operation.Result

namespace Job

/-- Do a job on a host. -/
def program (job : Job) : Program Host.interface Reply :=
  (job.session.perform job.operation).toProgram.bind fun told => .done ⟨job.operation, told⟩

/-- Do a job on a machine that nobody else uses. -/
def alone (job : Job) (machine : Machine) : Reply × Machine := machine.run job.program

/-- The name of the collection that a job may change. -/
def collection? (job : Job) : Option String :=
  job.operation.changed?.bind fun collection => (checkedName collection).toOption

/-- A job of a database that has been opened over a directory, which may change a collection. -/
structure Writes (job : Job) (home : Place) (machine : Machine) : Prop where
  opened : job.session.Opened job.store home machine
  changes : job.operation.changed?.isSome
  distinct : job.operation.Distinct

/-- What comes of a job. -/
def outcome (generator : Nat → Identifier.Generated) (job : Job) (state : Cabinet × Nat) :
    Reply × (Cabinet × Nat) :=
  (⟨job.operation, (Database.outcome (.files job.store) generator job.operation state).1⟩,
    (Database.outcome (.files job.store) generator job.operation state).2)

variable {job : Job} {home : Place} {machine : Machine}

theorem Writes.locks (writes : job.Writes home machine) : ∃ collection,
    job.operation.changed? = some collection ∧ Locks collection (perform job.operation) := by
  obtain ⟨collection, changes⟩ := Option.isSome_iff_exists.mp writes.changes
  exact ⟨collection, changes, perform_locks changes writes.distinct⟩

theorem collection?_eq {collection : Caller.Value}
    (changes : job.operation.changed? = some collection) {name : String} :
    job.collection? = some name ↔ checkedName collection = .ok name := by
  rw [collection?, changes, Option.bind_some]
  cases checkedName collection <;> simp [Except.toOption]

theorem named_of_collection? {name : String} (isName : job.collection? = some name) :
    Named name := by
  obtain ⟨collection, _, isName⟩ := Option.bind_eq_some_iff.mp isName
  cases checked : checkedName collection with
  | error failure =>
      rw [checked] at isName
      cases isName
  | ok other =>
      rw [checked] at isName
      cases isName
      exact named_of_checkedName checked

/-- No job takes anything out of its slot. -/
theorem Writes.orderly_outcome (writes : job.Writes home machine)
    (generator : Nat → Identifier.Generated) {state : Cabinet × Nat} (orderly : state.1.Orderly) :
    (job.outcome generator state).2.1.Orderly := by
  have slotted : state.1.Slotted (Keeper.files job.store).slot := orderly
  have after : (Database.outcome (.files job.store) generator job.operation state).2.1.Slotted
    (Keeper.files job.store).slot := slotted_outcome slotted writes.distinct
  exact after

/-- What a machine holds that has a directory in which databases of any layouts write. -/
abbrev Holds (home : Place) (machine : Machine) (generator : Nat → Identifier.Generated) :
    Cabinet × Nat → Machine → Prop :=
  Session.Rests { layout | layout.Blank } machine.disk home generator Unlocked

/-- What a database is asked for that nobody disturbs comes to its outcome. -/
theorem Holds.attempt_eq {session : Session} {store : FileStore}
    (opened : session.Opened store home machine) {generator : Nat → Identifier.Generated}
    {state : Cabinet × Nat} {later : Machine} (holds : Holds home machine generator state later)
    {operation : Operation} (distinct : operation.Distinct) :
    (later.attempt (session.perform operation)).1
        = (Database.outcome (.files store) generator operation state).1
      ∧ Holds home machine generator (Database.outcome (.files store) generator operation state).2
        (later.attempt (session.perform operation)).2 := by
  obtain ⟨_, _, _, _, keeps⟩ := holds.below
  have slotted : state.1.Slotted (Keeper.files store).slot := keeps.orderly
  have usual : store.layout ∈ { layout : Json.Layout | layout.Blank } := opened.blank
  have agrees := Session.agrees opened.vacant opened.backend usual
    (fun _ blank => blank) (perform_orderly distinct) holds
  have comes : Attempt.eval (answerOfCabinet store generator) (perform operation) state
      = Database.outcome (.files store) generator operation state :=
    eval_perform (Keeper.files store) generator slotted operation
  rwa [comes] at agrees

/-- A job that nobody disturbs comes to its outcome. -/
theorem Writes.alone_eq (writes : job.Writes home machine)
    {generator : Nat → Identifier.Generated} {state : Cabinet × Nat} {later : Machine}
    (holds : Holds home machine generator state later) :
    (job.alone later).1 = (job.outcome generator state).1
      ∧ Holds home machine generator (job.outcome generator state).2 (job.alone later).2 := by
  have run : job.alone later
      = (⟨job.operation, (later.attempt (job.session.perform job.operation)).1⟩,
        (later.attempt (job.session.perform job.operation)).2) := by
    rw [alone, program, Machine.run, Program.run_bind]
    rfl
  obtain ⟨told, goesOn⟩ := holds.attempt_eq writes.opened writes.distinct
  rw [run]
  exact ⟨congrArg (Reply.mk job.operation) told, goesOn⟩

/-- **Jobs one after another** come to their outcomes. -/
theorem oneByOne_alone {jobs : List Job} (writes : ∀ job ∈ jobs, job.Writes home machine)
    {generator : Nat → Identifier.Generated} {state : Cabinet × Nat} {later : Machine}
    (holds : Holds home machine generator state later) :
    (oneByOne Job.alone jobs later).1 = (oneByOne (Job.outcome generator) jobs state).1
      ∧ Holds home machine generator (oneByOne (Job.outcome generator) jobs state).2
        (oneByOne Job.alone jobs later).2 := by
  obtain ⟨same, last⟩ := oneByOne_agrees (Holds home machine generator)
    (fun job member state later holds => by
      obtain ⟨same, goesOn⟩ := (writes job member).alone_eq holds
      exact ⟨same.symm, goesOn⟩) holds
  exact ⟨same.symm, last⟩

end Job

/-! ## What depends on one collection alone -/

/-- Cabinets agree on a collection, after as many calls of the identifier generator. -/
def AgreeOn (name : String) (state state' : Cabinet × Nat) : Prop :=
  state.1.drawer? name = state'.1.drawer? name ∧ state.2 = state'.2

/-- What an action comes to that locks a collection depends on that collection alone. -/
theorem Locks.agrees {α : Type} {collection : Caller.Value} {action : Action α}
    (locks : Locks collection action) {name : String} (isName : checkedName collection = .ok name)
    (store : FileStore) (generator : Nat → Identifier.Generated) {state state' : Cabinet × Nat}
    (agree : AgreeOn name state state') :
    (Attempt.eval (answerOfCabinet store generator) action state).1
        = (Attempt.eval (answerOfCabinet store generator) action state').1
      ∧ AgreeOn name (Attempt.eval (answerOfCabinet store generator) action state).2
        (Attempt.eval (answerOfCabinet store generator) action state').2 := by
  cases locks with
  | refused failure => exact ⟨rfl, agree⟩
  | @holding name' body isName' asks =>
      obtain rfl : name' = name := Except.ok.inj (isName'.symm.trans isName)
      rw [eval_holding, eval_holding]
      refine Program.run_agrees (fun request fits state state' agree => ?_) asks agree
      obtain ⟨cabinet, calls⟩ := state
      obtain ⟨cabinet', calls'⟩ := state'
      obtain ⟨same, rfl⟩ := agree
      cases request with
      | store op =>
          obtain ⟨told, after⟩ := Cabinet.perform_local store same fits.2
          exact ⟨told, after, rfl⟩
      | tell _ | giveWay | generate => exact ⟨rfl, same, rfl⟩
      | lock _ | unlock _ => exact fits.elim

/-- **What a job comes to** whatever else is kept, when it is known what it comes to on its
collection. -/
theorem ComesTo.outcome_eq {job : Job} {home : Place} {machine : Machine}
    (writes : job.Writes home machine) {name : String} (isName : job.collection? = some name)
    {generator given : Nat → Identifier.Generated} {before after : Cabinet} {drawn : List Nat}
    {told : Except Failure job.operation.Result}
    (comes : ComesTo generator job.store (perform job.operation).toProgram before drawn told after)
    {cabinet : Cabinet} (orderly : cabinet.Orderly)
    (same : cabinet.drawer? name = before.drawer? name) {calls : Nat}
    (gives : Gives generator given drawn calls) :
    (job.outcome given (cabinet, calls)).1 = ⟨job.operation, told⟩
      ∧ AgreeOn name (job.outcome given (cabinet, calls)).2 (after, calls + drawn.length) := by
  obtain ⟨collection, changes, locks⟩ := writes.locks
  have checked := (Job.collection?_eq changes).mp isName
  have agrees := locks.agrees checked job.store given
    (show AgreeOn name (cabinet, calls) (before, calls) from ⟨same, rfl⟩)
  have run : Attempt.eval (answerOfCabinet job.store given) (perform job.operation) (before, calls)
      = (told, (after, calls + drawn.length)) := comes given calls gives
  have slotted : cabinet.Slotted (Keeper.files job.store).slot := orderly
  have isOutcome : Attempt.eval (answerOfCabinet job.store given) (perform job.operation)
      (cabinet, calls) = outcome (.files job.store) given job.operation (cabinet, calls) :=
    eval_perform (Keeper.files job.store) given slotted job.operation
  rw [run, isOutcome] at agrees
  exact ⟨congrArg (Reply.mk job.operation) agrees.1, agrees.2⟩

end DocStore.Database

/-!
## Writes of one database

A database that is asked for several writes on one collection, and need not wait for one of them to
ask for the next, does them in the order in which it is asked, whatever becomes of each
(`Session.writes_in_order`).  For an operation that may change a collection does all that it does in
the section of this collection, over every storage (`Session.visits`).
-/

namespace DocStore.Database

open Host (FreeOf Inside Machine Pool StartsInOrder Fair Visits)

namespace Session

variable {α : Type} (session : Session) {name : String}

/-! ### What is asked inside of the section -/

/-- Whoever takes the lock file of a collection holds it for this collection. -/
theorem exists_takeFile (name : String) (backend : Backend) :
    ∃ takes : Program Host.interface (Except Failure (Option Nat)),
      takes.Asks Host.Request.Free
        ∧ @takeFile .json name backend
          = takes.bind fun taken => .done (taken.map fun handle => ⟨name, handle⟩) := by
  cases backend with
  | memory => exact ⟨.done (.ok none), .done _, rfl⟩
  | files store =>
      refine ⟨(store.lockOf name).acquire.toProgram.bind fun taken => .done (taken.map some),
        .bind (store.lockOf name).free_acquire fun _ => .done _, ?_⟩
      rw [Program.bind_assoc]
      show (store.lockOf name).acquire.toProgram.bind _ = _
      refine congrArg _ (funext fun taken => ?_)
      cases taken <;> rfl

theorem free_giveFile (hold : Hold .json) (backend : Backend) :
    (giveFile hold backend).Asks Host.Request.Free := by
  cases backend with
  | memory => exact .done _
  | files store =>
      unfold giveFile
      dsimp only
      split
      next handle shown _ _ => exact (store.lockOf shown.text).free_release handle
      next => exact .done _

theorem free_meaning {heads : Set String} {request : Request .json} (fits : request.Fits heads) :
    (session.meaning request).Asks Host.Request.Free := by
  cases request with
  | store op =>
      show (store session.number op session.backend).Asks _
      cases session.backend with
      | memory => exact .ask trivial fun _ => .done _
      | files store => exact store.free_perform op
  | tell notice =>
      show FreeOf (session.tell notice)
      unfold tell
      split
      · exact .bind (.ofExcept _) fun _ => Host.free_log _ _
      · exact .pure ()
  | generate | giveWay => exact .ask trivial fun _ => .done _
  | lock _ | unlock _ => exact fits.elim

/-- What asks for what fits has to do with no section. -/
theorem free_interpret {heads : Set String} {program : Program (interface .json) α}
    (asks : program.Asks (Request.Fits heads)) :
    (program.interpret session.meaning).Asks Host.Request.Free :=
  asks.interpret fun _ fits => session.free_meaning fits

/-! ### Visits -/

/-- What an operation does while it holds the lock of a collection it does in its section. -/
theorem visits_of_locks {collection : Caller.Value} {action : Action α}
    (locks : Locks collection action) (isName : checkedName collection = .ok name) :
    Visits (@sectionOf .json session name) (session.run action).toProgram := by
  cases locks with
  | refused failure => exact .ended _
  | @holding name' body isName' asks =>
      obtain rfl : name' = name := Except.ok.inj (isName'.symm.trans isName)
      obtain ⟨takes, free, isTaking⟩ := exists_takeFile name' session.backend
      show Visits _ ((@lock .json session name').bind _)
      refine .enters ?_
      show Inside _ (((@takeFile .json name' session.backend).bind _).bind _)
      rw [isTaking, Program.bind_assoc, Program.bind_assoc]
      refine .bind free fun taken => ?_
      cases taken with
      | error failure => exact .leaves rfl
      | ok handle =>
          show Inside _ (Program.interpret session.meaning (body.toProgram.bind _))
          rw [Program.interpret_bind]
          refine .bind (session.free_interpret asks) fun result => ?_
          show Inside _ ((session.unlock (⟨name', handle⟩ : Hold .json)).bind _)
          rw [unlock, Program.bind_assoc]
          refine .bind (free_giveFile _ _) fun given => ?_
          cases given with
          | ok => exact .asks trivial fun _ => .asks trivial fun _ => .leaves rfl
          | error failure => exact .asks trivial fun _ => .asks trivial fun _ => .leaves rfl

/-- Do an operation and tell what has come of it. -/
def reply (operation : Operation) : Program Host.interface Reply :=
  (session.perform operation).toProgram.bind fun told => .done ⟨operation, told⟩

/-- **An operation that may change a collection** does all that it does in its section. -/
theorem visits {operation : Operation} (changes : operation.Changes name)
    (distinct : operation.Distinct) :
    Visits (@sectionOf .json session name) (session.reply operation) := by
  obtain ⟨collection, changes, isName⟩ := changes
  exact (session.visits_of_locks (perform_locks changes distinct) isName).map _

/-! ### Several writes -/

/-- What comes of writes of one database when each is asked for after the one before has ended. -/
def writes (operations : List Operation) (machine : Machine) : List Reply × Machine :=
  oneByOne (fun operation machine => machine.run (session.reply operation)) operations machine

/-- The programs of writes, which have all been started or are about to be. -/
def begun (operations : List Operation) (machine : Machine) : Pool Reply :=
  .start (operations.map session.reply) machine

/-- Writes that need not wait for one another come to what they come to one after another, and come
to an end unless one of them is kept from going on. -/
structure InOrder (operations : List Operation) (machine : Machine) (turns : Nat → Nat) : Prop where
  agrees : ∀ time replies,
    ((session.begun operations machine).atTime turns time).results? = some replies →
      (replies, ((session.begun operations machine).atTime turns time).machine)
        = session.writes operations machine
  ends : Fair operations.length turns → ∃ time, ∀ later, time ≤ later →
    ((session.begun operations machine).atTime turns later).results?
        = some (session.writes operations machine).1
      ∧ ((session.begun operations machine).atTime turns later).machine
        = (session.writes operations machine).2

/-- **Writes of one database on one collection** are done in the order in which they are started,
whether they succeed or fail. -/
theorem writes_in_order {operations : List Operation}
    (changes : ∀ operation ∈ operations, operation.Changes name ∧ operation.Distinct)
    (machine : Machine) {turns : Nat → Nat} (inOrder : StartsInOrder operations.length turns) :
    session.InOrder operations machine turns := by
  have visits : ∀ program ∈ operations.map session.reply,
      Visits (@sectionOf .json session name) program := by
    intro program member
    obtain ⟨operation, isOperation, rfl⟩ := List.mem_map.mp member
    exact session.visits (changes operation isOperation).1 (changes operation isOperation).2
  have same : oneByOne Machine.run (operations.map session.reply) machine
      = session.writes operations machine := oneByOne_map ..
  have inOrder' : StartsInOrder (operations.map session.reply).length turns := by
    rwa [List.length_map]
  constructor
  case agrees =>
    intro time replies ended
    exact (Pool.ends_in_order visits inOrder' ended).trans same
  case ends =>
    intro fair
    have fair' : Fair (operations.map session.reply).length turns := by rwa [List.length_map]
    have ends := Pool.all_end visits inOrder' fair' machine
    rwa [same] at ends

end Session

/-- An insertion, the same one again, and a removal of what has been inserted. -/
def insertTwiceAndRemove : List Operation :=
  [.insert (.ofString "users") ada, .insert (.ofString "users") ada,
    .removeOneById (.ofString "users") (.ofString "ada")]

/-- The second insertion fails, and the removal after it succeeds, over both storages. -/
theorem second_insertion_fails_in_order :
    (∀ operation ∈ insertTwiceAndRemove, operation.Changes "users" ∧ operation.Distinct)
      ∧ StartsInOrder insertTwiceAndRemove.length (· % 3)
      ∧ ∀ session ∈ [newSession, Session.start 0 .memory newStore.logger],
        session.InOrder insertTwiceAndRemove newMachine (· % 3)
          ∧ (session.writes insertTwiceAndRemove newMachine).1.map (·.told.isOk)
            = [true, false, true] := by
  have isName : checkedName (.ofString "users") = .ok "users" := rfl
  have changes : ∀ operation ∈ insertTwiceAndRemove,
      operation.Changes "users" ∧ operation.Distinct := by
    simp [insertTwiceAndRemove, Operation.Changes, Operation.changed?, Operation.Distinct, isName,
      distinct_ada]
  have inOrder : StartsInOrder insertTwiceAndRemove.length (· % 3) := Host.startsInOrder_round 3
  refine ⟨changes, inOrder, fun session member => ?_⟩
  refine ⟨session.writes_in_order changes newMachine inOrder, ?_⟩
  rcases List.mem_cons.mp member with rfl | member
  · decide +kernel
  · obtain rfl := List.mem_singleton.mp member
    decide +kernel

end DocStore.Database
