import DocStore.Database.Session
import DocStore.Proofs.Database.Requests
import DocStore.Proofs.Files.Locks
/-!
# A database that nobody else uses

Without others about, a database comes down to its storage and to how often it has called the
identifier generator: locks are free, and what is told has no effect on what follows
(`Database.answer`).  `Session.agrees` says that a database over files does what is said of a
cabinet, step by step, and leaves no lock behind; `Session.agrees_memory` says the same of a
database in memory.
-/

set_option autoImplicit false

namespace DocStore.Database

open Disk (Branch Place Shows Vacant)
open Files (Named)
open Host (Machine Yields)

/-- What a storage that is a value answers when nobody else uses the database.  The state is the
storage together with how often the identifier generator has been called. -/
def answer {σ : Type} (perform : (op : Storage.Op .json) → σ → op.Answer × σ)
    (generator : Nat → Identifier.Generated) :
    (request : Request .json) → σ × Nat → request.Answer × (σ × Nat)
  | .store op, (storage, calls) => ((perform op storage).1, ((perform op storage).2, calls))
  | .lock collection, state => (.ok ⟨collection, none⟩, state)
  | .unlock _, state | .tell _, state => (.ok (), state)
  | .generate, (storage, calls) => (generator calls, (storage, calls + 1))
  | .giveWay, state => ((), state)

/-- How a database over a cabinet answers. -/
abbrev answerOfCabinet (store : FileStore) (generator : Nat → Identifier.Generated) :
    (request : Request .json) → Cabinet × Nat → request.Answer × (Cabinet × Nat) :=
  answer (fun op cabinet => cabinet.perform store op) generator

/-- How a database in memory answers. -/
abbrev answerOfMemory (generator : Nat → Identifier.Generated) :
    (request : Request .json) → Memory .json × Nat → request.Answer × (Memory .json × Nat) :=
  answer (fun op memory => memory.perform op) generator

section

variable {σ α : Type} (perform : (op : Storage.Op .json) → σ → op.Answer × σ)
  (generator : Nat → Identifier.Generated)

@[simp] theorem eval_storeOn (op : Storage.Op .json) (state : σ × Nat) :
    Attempt.eval (answer perform generator) (storeOn op) state
      = ((perform op state.1).1, ((perform op state.1).2, state.2)) := rfl

@[simp] theorem eval_tell (notice : Notice .json) (state : σ × Nat) :
    Attempt.eval (answer perform generator) (tell notice) state = (.ok (), state) := rfl

@[simp] theorem eval_waitFor (body : Action α) (state : σ × Nat) :
    Attempt.eval (answer perform generator) (waitFor body) state
      = Attempt.eval (answer perform generator) body state :=
  Attempt.eval_andFinally_ok _ rfl

@[simp] theorem eval_resultOf (result : Except Failure α) (state : σ × Nat) :
    Attempt.eval (answer perform generator) (resultOf result) state = (result, state) :=
  eval_waitFor perform generator (Attempt.ofExcept result) state

@[simp] theorem eval_generate (state : σ × Nat) :
    Attempt.eval (answer perform generator) generate state
      = (Identifier.check (generator state.2), (state.1, state.2 + 1)) := by
  have step : Attempt.eval (answer perform generator)
      (Attempt.request (I := interface .json) .generate) state
        = (.ok (generator state.2), (state.1, state.2 + 1)) := rfl
  rw [generate, Attempt.eval_bind_ok step]
  cases Identifier.check (generator state.2) with
  | ok id => rfl
  | error failure => exact eval_resultOf perform generator _ _

/-- While nobody else is about the lock makes no difference. -/
@[simp] theorem eval_holding (name : String) (body : Action α) (state : σ × Nat) :
    Attempt.eval (answer perform generator) (holding name body) state
      = Attempt.eval (answer perform generator) body state := by
  have step : Attempt.eval (answer perform generator) (lock name) state
      = (.ok ⟨name, none⟩, state) := rfl
  rw [holding, Attempt.eval_bind_ok step]
  exact Attempt.eval_andFinally_ok _ rfl

end

namespace Session

/-- How a database that is open answers its own requests on a machine. -/
def answer (session : Session) (request : Request .json) (machine : Machine) :
    request.Answer × Machine :=
  machine.run (session.meaning request)

theorem eval_run {α : Type} (session : Session) (action : Action α) (machine : Machine) :
    machine.eval (session.run action) = Attempt.eval session.answer action machine :=
  Program.run_interpret (I := interface .json) session.meaning Machine.answer action.toProgram
    machine

/-- What the database tells is only printed. -/
theorem exists_tell (session : Session) (notice : Notice .json) (machine : Machine) :
    ∃ printed, session.answer (.tell notice) machine = (.ok (), { machine with printed }) := by
  have logs (logger : Log.Logger) (event : Log.Event) :
      ∃ printed, machine.eval (Host.log logger event) = (.ok (), { machine with printed }) := by
    have now : machine.eval (Host.ask .now) = (.ok machine.clock, machine) := rfl
    unfold Host.log
    split
    · rw [Machine.eval, Attempt.eval_bind_ok now]
      unfold Host.printLog
      split
      · exact ⟨_, rfl⟩
      · exact ⟨machine.printed, rfl⟩
    · exact ⟨machine.printed, rfl⟩
  show ∃ printed, machine.eval (session.tell notice) = (.ok (), { machine with printed })
  unfold Session.tell
  split
  · exact logs _ _
  · exact ⟨machine.printed, rfl⟩

/-! ## Over files -/

/-- A machine on whose disk a root holds a cabinet in some layouts, with locks of some kind. -/
structure Rests (layouts : Set Json.Layout) (origin : Disk) (home : Place)
    (generator : Nat → Identifier.Generated) (isLocked : Branch → Prop) (state : Cabinet × Nat)
    (machine : Machine) : Prop where
  generator : machine.generator = generator
  calls : machine.calls = state.2
  below : ∃ branch locked, isLocked locked ∧ Shows origin home branch machine.disk
    ∧ Keeps layouts state.1 locked branch

section

variable {store : FileStore} {layouts : Set Json.Layout} {origin : Disk} {home : Place}
  {generator : Nat → Identifier.Generated} {isLocked isLocked' : Branch → Prop}
  {state : Cabinet × Nat} {machine after : Machine}

/-- What only works below the root leaves the generator alone. -/
theorem Rests.follow (rests : Rests layouts origin home generator isLocked state machine)
    (same : machine.Same after) {cabinet : Cabinet} {branch locked : Branch}
    (held : isLocked' locked) (shows : Shows origin home branch after.disk)
    (keeps : Keeps layouts cabinet locked branch) :
    Rests layouts origin home generator isLocked' (cabinet, state.2) after where
  generator := same.generator.trans rests.generator
  calls := same.calls.trans rests.calls
  below := ⟨branch, locked, held, shows, keeps⟩

/-- A root that is empty yet. -/
theorem rests_of_vacant (vacant : Vacant machine.disk store.root home)
    (usual : store.layout ∈ layouts) :
    Rests layouts machine.disk home machine.generator Unlocked (Memory.empty, machine.calls)
      machine where
  generator := rfl
  calls := rfl
  below := ⟨_, _, unlocked_nothing, vacant.shows, keeps_empty usual⟩

variable (vacant : Vacant origin store.root home) {session : Session}
  (isBackend : session.backend = .files store)
include vacant isBackend

/-- A request that fits is answered as the cabinet tells, whatever locks there are. -/
theorem agrees_request (usual : store.layout ∈ layouts) (blank : ∀ layout ∈ layouts, layout.Blank)
    {locked : Branch} {heads : Set String}
    {request : Request .json} (fits : request.Fits heads)
    (rests : Rests layouts origin home generator (Eq locked) state machine) :
    (answerOfCabinet store generator request state).1 = (session.answer request machine).1
      ∧ Rests layouts origin home generator (Eq locked)
        (answerOfCabinet store generator request state).2 (session.answer request machine).2 := by
  obtain ⟨branch, locked', rfl, shows, keeps⟩ := rests.below
  cases request with
  | store op =>
      obtain ⟨after, branch', run, same, shows', keeps'⟩ :=
        (FileStore.serves vacant keeps usual blank fits.1 op.within_univ).yields shows
      have run' : session.answer (.store op) machine
          = ((Cabinet.perform store state.1 op).1, after) := by
        rw [answer, meaning, isBackend]
        exact run
      rw [run']
      exact ⟨rfl, rests.follow same rfl shows' keeps'⟩
  | tell notice =>
      obtain ⟨printed, run⟩ := session.exists_tell notice machine
      have same : machine.Same { machine with printed } := ⟨rfl, rfl, rfl⟩
      rw [run]
      exact ⟨rfl, rests.follow same rfl shows keeps⟩
  | generate =>
      have run : session.answer .generate machine
        = (generator state.2, { machine with calls := state.2 + 1 }) := by
        rw [← rests.generator, ← rests.calls]
        rfl
      rw [run]
      exact ⟨rfl, rests.generator, rfl, branch, locked, rfl, shows, keeps⟩
  | giveWay => exact ⟨rfl, rests⟩
  | lock _ | unlock _ => exact fits.elim

/-- The lock of a collection is obtained, and nothing else changes. -/
theorem locks {name : String} (named : Named name) {branch : Branch}
    (shows : Shows origin home branch machine.disk) (unlocked : Unlocked (locksOf branch)) :
    ∃ handle after branch', session.answer (.lock name) machine = (.ok ⟨name, some handle⟩, after)
      ∧ machine.Same after ∧ Shows origin home branch' after.disk ∧ Held name (locksOf branch')
      ∧ Alike branch branch' := by
  obtain ⟨handle, after, branch', run, same, shows', held, alike⟩ :=
    FileStore.takes_lock vacant shows unlocked named
  refine ⟨handle, after, branch', ?_, same, shows', held, alike⟩
  have acquires : (store.lockOf name).acquire.toProgram.run Machine.answer machine
      = (.ok handle, after) := run
  have takes : Program.run Machine.answer (takeFile (show Content.json.Key from name)
      session.backend) machine = (.ok ⟨name, some handle⟩, after) := by
    rw [isBackend]
    refine (Program.run_bind Machine.answer (store.lockOf name).acquire.toProgram _ machine).trans ?_
    rw [acquires]
    rfl
  refine (Program.run_bind Machine.answer (takeFile (show Content.json.Key from name)
    session.backend) _ machine).trans ?_
  rw [takes]
  rfl

/-- The lock of a collection is given back, and nothing else changes. -/
theorem unlocks {name : String} (named : Named name) (handle : Nat) {branch : Branch}
    (shows : Shows origin home branch machine.disk) (held : Held name (locksOf branch)) :
    ∃ after branch', session.answer (.unlock ⟨name, some handle⟩) machine = (.ok (), after)
      ∧ machine.Same after ∧ Shows origin home branch' after.disk ∧ Unlocked (locksOf branch')
      ∧ Alike branch branch' := by
  obtain ⟨after, branch', run, same, shows', unlocked, alike⟩ :=
    FileStore.gives_lock vacant shows held named handle
  refine ⟨after, branch', ?_, same, shows', unlocked, alike⟩
  have gives : (giveFile (show Hold .json from ⟨name, some handle⟩) session.backend).run
      Machine.answer machine = (.ok (), after) := by
    rw [isBackend]
    exact run
  refine (Program.run_bind Machine.answer (giveFile (show Hold .json from ⟨name, some handle⟩)
    session.backend) _ machine).trans ?_
  rw [gives]
  rfl

/-- **A database over files does what is said of its cabinet**, and leaves no lock behind. -/
theorem agrees {α : Type} (usual : store.layout ∈ layouts)
    (blank : ∀ layout ∈ layouts, layout.Blank) {action : Action α} (orderly : Orderly action)
    (rests : Rests layouts origin home generator Unlocked state machine) :
    (machine.eval (session.run action)).1
        = (Attempt.eval (answerOfCabinet store generator) action state).1
      ∧ Rests layouts origin home generator Unlocked
        (Attempt.eval (answerOfCabinet store generator) action state).2
        (machine.eval (session.run action)).2 := by
  rw [eval_run]
  have runs {heads : Set String} {body : Action α} (asks : body.Asks (Request.Fits heads))
      {locked : Branch}
      {machine : Machine} (rests : Rests layouts origin home generator (Eq locked) state machine) :
      (Attempt.eval (answerOfCabinet store generator) body state).1
          = (Attempt.eval session.answer body machine).1
        ∧ Rests layouts origin home generator (Eq locked)
          (Attempt.eval (answerOfCabinet store generator) body state).2
          (Attempt.eval session.answer body machine).2 := by
    refine Program.run_agrees (fun request fits state machine rests => ?_) asks rests
    exact agrees_request vacant isBackend usual blank fits rests
  cases orderly with
  | free asks =>
      obtain ⟨branch, locked, unlocked, shows, keeps⟩ := rests.below
      obtain ⟨result, rests'⟩ := runs asks
        ⟨rests.generator, rests.calls, branch, locked, rfl, shows, keeps⟩
      obtain ⟨branch', _, rfl, shows', keeps'⟩ := rests'.below
      exact ⟨result.symm, rests'.generator, rests'.calls, branch', locked, unlocked, shows', keeps'⟩
  | @holding name body named asks =>
      rw [eval_holding]
      obtain ⟨branch, locked, unlocked, shows, keeps⟩ := rests.below
      obtain ⟨handle, after, branch', taken, same, shows', held, alike⟩ :=
        locks vacant isBackend named shows (keeps.locksOf_eq ▸ unlocked)
      obtain ⟨result, rests'⟩ := runs asks (rests.follow same rfl shows' (keeps.alike alike))
      obtain ⟨later, _, rfl, shows'', keeps'⟩ := rests'.below
      obtain ⟨last, branch'', given, same', showsLast, unlocked', alike'⟩ :=
        unlocks vacant isBackend named handle shows'' (keeps'.locksOf_eq ▸ held)
      have step : Attempt.eval session.answer (Database.lock name) machine
        = (.ok ⟨name, some handle⟩, after) := taken
      have ends : Attempt.eval session.answer (Database.unlock ⟨name, some handle⟩)
        (Attempt.eval session.answer body after).2 = (.ok (), last) := given
      rw [Database.holding, Attempt.eval_bind_ok step, Attempt.eval_andFinally_ok _ ends]
      exact ⟨result.symm, rests'.follow same' unlocked' showsLast (keeps'.alike alike')⟩

end

/-! ## In memory -/

/-- A machine that has a storage of a database in memory. -/
structure Remembers (number : Nat) (generator : Nat → Identifier.Generated)
    (state : Memory .json × Nat) (machine : Machine) : Prop where
  generator : machine.generator = generator
  calls : machine.calls = state.2
  memory : machine.memories .json number = state.1

section

variable {session : Session} (isBackend : session.backend = .memory)
  {generator : Nat → Identifier.Generated} {state : Memory .json × Nat} {machine : Machine}
include isBackend

/-- Every request is answered as the storage in memory tells. -/
theorem agrees_request_memory (request : Request .json)
    (remembers : Remembers session.number generator state machine) :
    (answerOfMemory generator request state).1 = (session.answer request machine).1
      ∧ Remembers session.number generator (answerOfMemory generator request state).2
        (session.answer request machine).2 := by
  cases request with
  | store op =>
      have run : session.answer (.store op) machine
          = ((state.1.perform op).1, { machine with
              memories := machine.memories.put session.number (state.1.perform op).2 }) := by
        rw [answer, meaning, isBackend, ← remembers.memory]
        rfl
      rw [run]
      refine ⟨rfl, remembers.generator, remembers.calls, ?_⟩
      show machine.memories.put session.number (state.1.perform op).2 .json session.number = _
      rw [Memories.put, dif_pos ⟨rfl, rfl⟩]
      rfl
  | tell notice =>
      obtain ⟨printed, run⟩ := session.exists_tell notice machine
      rw [run]
      exact ⟨rfl, remembers.generator, remembers.calls, remembers.memory⟩
  | generate =>
      have run : session.answer .generate machine
        = (generator state.2, { machine with calls := state.2 + 1 }) := by
        rw [← remembers.generator, ← remembers.calls]
        rfl
      rw [run]
      exact ⟨rfl, remembers.generator, rfl, remembers.memory⟩
  | giveWay => exact ⟨rfl, remembers⟩
  | lock name =>
      have run : session.answer (.lock name) machine = (.ok ⟨name, none⟩, machine) := by
        rw [answer, meaning, Session.lock, isBackend]
        rfl
      rw [run]
      exact ⟨rfl, remembers⟩
  | unlock hold =>
      have run : session.answer (.unlock hold) machine = (.ok (), machine) := by
        rw [answer, meaning, Session.unlock, isBackend]
        rfl
      rw [run]
      exact ⟨rfl, remembers⟩

/-- **A database in memory does what is said of its storage.** -/
theorem agrees_memory {α : Type} (action : Action α)
    (remembers : Remembers session.number generator state machine) :
    (machine.eval (session.run action)).1
        = (Attempt.eval (answerOfMemory generator) action state).1
      ∧ Remembers session.number generator (Attempt.eval (answerOfMemory generator) action state).2
        (machine.eval (session.run action)).2 := by
  rw [eval_run]
  suffices same : (Attempt.eval (answerOfMemory generator) action state).1
        = (Attempt.eval session.answer action machine).1
      ∧ Remembers session.number generator (Attempt.eval (answerOfMemory generator) action state).2
        (Attempt.eval session.answer action machine).2 from ⟨same.1.symm, same.2⟩
  refine Program.run_agrees (fun request _ state machine remembers => ?_) (.all action.toProgram)
    remembers
  exact agrees_request_memory isBackend request remembers

end

end Session

end DocStore.Database
