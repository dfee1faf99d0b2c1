import DocStore.Host.Machine
import DocStore.Proofs.Attempt
import DocStore.Proofs.Disk.Calls
/-!
# Running actions on a machine

An action that works below a root changes the machine in what lies there, and otherwise at most in
its names and in what has been printed (`Machine.Same`).  `Yields` says so of an action that nobody
interrupts, with its result and what is known of the branch that it leaves; `Yields.bind` follows
one action after another, and `Yields.bind_same` one that leaves the branch as it is.
-/

set_option autoImplicit false

namespace DocStore.Host

open Disk (Branch Place Path Shows Vacant)

namespace Machine

/-- Two machines have the same storages in memory and the same identifier generator, which has been
called equally often. -/
structure Same (before after : Machine) : Prop where
  memories : after.memories = before.memories
  generator : after.generator = before.generator
  calls : after.calls = before.calls

theorem Same.refl (machine : Machine) : Same machine machine := ⟨rfl, rfl, rfl⟩

theorem Same.trans {first second third : Machine} (left : Same first second)
    (right : Same second third) : Same first third :=
  ⟨right.memories.trans left.memories, right.generator.trans left.generator,
    right.calls.trans left.calls⟩

/-- What comes of an action on a machine. -/
abbrev eval {α : Type} (action : Action α) (machine : Machine) : Except Failure α × Machine :=
  Attempt.eval answer action machine

theorem attempt_eq_eval {α : Type} (action : Action α) (machine : Machine) :
    machine.attempt action = machine.eval action := rfl

variable (machine : Machine)

@[simp] theorem eval_tryCall (call : Disk.Call) :
    machine.eval (tryCall call)
      = (.ok (machine.disk.answer call).1,
        { machine with disk := (machine.disk.answer call).2 }) := rfl

@[simp] theorem eval_callAs (call : Disk.Call) (failure : Disk.Errno → Failure) :
    machine.eval (callAs call failure)
      = ((machine.disk.answer call).1.mapError failure,
        { machine with disk := (machine.disk.answer call).2 }) := rfl

/-- A call that changes nothing, after which nothing is asked any more. -/
theorem eval_tryCall_bind {α : Type} {call : Disk.Call} {next : call.Answer → Action α}
    {answer : call.Answer} {result : Except Failure α}
    (answers : machine.disk.answer call = (answer, machine.disk))
    (ends : next answer = Attempt.ofExcept result) :
    machine.eval (tryCall call >>= next) = (result, machine) := by
  have step : machine.eval (tryCall call) = (.ok answer, machine) := by
    rw [eval_tryCall, answers]
  rw [eval, Attempt.eval_bind_ok step, ends]
  rfl

@[simp] theorem eval_freshName :
    machine.eval (ask .freshName)
      = (.ok (freshName machine.names), { machine with names := machine.names + 1 }) := rfl

@[simp] theorem eval_now : machine.eval (ask .now) = (.ok machine.clock, machine) := rfl

@[simp] theorem eval_processId :
    machine.eval (ask .processId) = (.ok machine.processId, machine) := rfl

end Machine

/-- An action on a machine ends with a result and leaves a branch of some kind below a root, and
nothing else on the disk changes. -/
def Yields {α : Type} (origin : Disk) (home : Place) (action : Action α) (machine : Machine)
    (result : Except Failure α) (holds : Branch → Prop) : Prop :=
  ∃ after branch, machine.eval action = (result, after) ∧ machine.Same after
    ∧ Shows origin home branch after.disk ∧ holds branch

namespace Yields

variable {α β : Type} {origin : Disk} {home : Place} {machine : Machine} {branch : Branch}
  {holds holds' : Branch → Prop}

theorem pure (value : α) (shows : Shows origin home branch machine.disk) (held : holds branch) :
    Yields origin home (Pure.pure value) machine (.ok value) holds :=
  ⟨machine, branch, rfl, .refl machine, shows, held⟩

theorem mono {action : Action α} {result : Except Failure α}
    (yields : Yields origin home action machine result holds)
    (implies : ∀ branch, holds branch → holds' branch) :
    Yields origin home action machine result holds' := by
  obtain ⟨after, branch, run, same, shows, held⟩ := yields
  exact ⟨after, branch, run, same, shows, implies branch held⟩

/-- A step that succeeds goes on from the machine that it leaves. -/
theorem step_bind {first : Action α} {next : α → Action β} {value : α} {middle : Machine}
    {result : Except Failure β} (step : machine.eval first = (.ok value, middle))
    (same : machine.Same middle) (goesOn : Yields origin home (next value) middle result holds) :
    Yields origin home (first >>= next) machine result holds := by
  obtain ⟨after, branch, run, same', shows, held⟩ := goesOn
  exact ⟨after, branch, by rw [Machine.eval, Attempt.eval_bind_ok step]; exact run,
    same.trans same', shows, held⟩

/-- One action after another that succeeds. -/
theorem bind {first : Action α} {next : α → Action β} {value : α} {result : Except Failure β}
    (yields : Yields origin home first machine (.ok value) holds)
    (goesOn : ∀ (after : Machine) (branch : Branch), machine.Same after →
      Shows origin home branch after.disk → holds branch →
      Yields origin home (next value) after result holds') :
    Yields origin home (first >>= next) machine result holds' := by
  obtain ⟨middle, branch, run, same, shows, held⟩ := yields
  exact step_bind run same (goesOn middle branch same shows held)

/-- One action after another that succeeds and leaves everything below the root as it is. -/
theorem bind_same {first : Action α} {next : α → Action β} {value : α} {result : Except Failure β}
    (yields : Yields origin home first machine (.ok value) (Eq branch))
    (goesOn : ∀ after : Machine, machine.Same after → Shows origin home branch after.disk →
      Yields origin home (next value) after result holds) :
    Yields origin home (first >>= next) machine result holds :=
  yields.bind fun after _ same shows sameBranch => goesOn after same (sameBranch ▸ shows)

/-- A call that is answered goes on with the answer. -/
theorem tryCall_bind {call : Disk.Call} {next : call.Answer → Action β} {answer : call.Answer}
    {disk : Disk} {result : Except Failure β} (answers : machine.disk.answer call = (answer, disk))
    (goesOn : Yields origin home (next answer) { machine with disk } result holds) :
    Yields origin home (Host.tryCall call >>= next) machine result holds := by
  have step : machine.eval (Host.tryCall call) = (.ok answer, { machine with disk }) := by
    rw [Machine.eval_tryCall, answers]
  exact step_bind step ⟨rfl, rfl, rfl⟩ goesOn

/-- A request that concerns no disk and no storage goes on with its answer. -/
theorem ask_bind {request : Request} {next : request.Answer → Action β} {value : request.Answer}
    {after : Machine} {result : Except Failure β}
    (answers : Machine.answer request machine = (value, after)) (same : machine.Same after)
    (goesOn : Yields origin home (next value) after result holds) :
    Yields origin home (ask request >>= next) machine result holds := by
  refine step_bind ?_ same goesOn
  show (Except.ok (Machine.answer request machine).1, (Machine.answer request machine).2) = _
  rw [answers]

end Yields

end DocStore.Host
