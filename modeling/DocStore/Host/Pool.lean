import DocStore.Host.Machine
import DocStore.Lock.Mutex
/-!
# Several programs on one machine

A pool holds programs that run on the same machine.  In one step one of them asks its next request;
requests are indivisible.  A program that comes to a section waits there until it is its turn.
`Pool.step` lets any program make a step, so that every interleaving is a list of places;
`DocStore.Host.Loop` is the order in which a process lets them.
-/

set_option autoImplicit false

namespace DocStore.Host

/-- A program in a pool. -/
structure Thread (α : Type) where
  /-- What is left of the program. -/
  program : Program interface α
  /-- Whether the program has come to the section that it asks for. -/
  queued : Bool

/-- Programs that run on the same machine. -/
structure Pool (α : Type) where
  /-- The programs. -/
  threads : List (Thread α)
  /-- Who is in which section and who waits for it, by the places of the programs. -/
  sections : Mutex Section Nat
  /-- The machine. -/
  machine : Machine

namespace Pool

variable {α : Type}

/-- A pool of programs that have not started. -/
def start (programs : List (Program interface α)) (machine : Machine) : Pool α :=
  ⟨programs.map fun program => ⟨program, false⟩, .empty, machine⟩

/-- The pool with the thread at a place replaced. -/
def setThread (pool : Pool α) (place : Nat) (thread : Thread α) : Pool α :=
  { pool with threads := pool.threads.set place thread }

/-- Let the thread at a place make a step with a request and what follows it. -/
def ask (pool : Pool α) (place : Nat) (queued : Bool) :
    (request : Request) → (request.Answer → Program interface α) → Pool α
  | .enter key, next =>
      let sections := if queued then pool.sections else pool.sections.enter key place
      let thread : Thread α :=
        if sections.holder? key = some place then ⟨next (), false⟩
        else ⟨.ask (.enter key) next, true⟩
      { pool.setThread place thread with sections }
  | .leave key, next =>
      { pool.setThread place ⟨next (), false⟩ with sections := pool.sections.leave key }
  | request, next =>
      let (value, machine) := Machine.answer request pool.machine
      { pool.setThread place ⟨next value, false⟩ with machine }

/-- Let the thread at a place make a step. -/
def step (pool : Pool α) (place : Nat) : Pool α :=
  match pool.threads[place]? with
  | some ⟨.ask request next, queued⟩ => pool.ask place queued request next
  | _ => pool

/-- The results of the threads, when all have ended. -/
def results? (pool : Pool α) : Option (List α) :=
  pool.threads.mapM fun thread =>
    match thread.program with
    | .done result => some result
    | .ask _ _ => none

end Pool

end DocStore.Host
