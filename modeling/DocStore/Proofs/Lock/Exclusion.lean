import DocStore.Proofs.Lock.Heeding
import Mathlib.Logic.Function.Basic
/-!
# A lock file lets one in at a time

Any number of programs do something while they hold the lock of one path (`LockCall`).  They make
their requests in any order, calls on the disk fail now and then, and time passes.  A call has taken
the lock when it has been through all of `FileLock.acquire`, and its body runs from then on until it
has come to its end (`LockCall.Runs`).

`LockCall.Reached` tells how far a call has come, and by which file it holds the lock meanwhile:
from the moment at which it creates the file, before it has written its record, until it removes it.
The invariant of all runs (`Guarded`) says that one call at most holds the lock, and that the file
by which it does so is there; every turn keeps it (`Guarded.turn`).  `LockCall.excludes` is what
follows for the bodies, for those that wait in vain, and for the file in the end.
-/

set_option autoImplicit false

namespace DocStore

open Disk (InOrder Path)
open FileLock (Alters Heeds Taken)
open Host (Action Machine Pool Replies Request Turn interface)

/-- Something to be done while a lock is held, on a holder of its own. -/
structure LockCall (α : Type) where
  lock : FileLock
  body : LockHolder → Action α

namespace LockCall

variable {α : Type}

/-- What comes of a call, and the holder after it. -/
abbrev Outcome (α : Type) : Type := Except Failure (Except Failure α × LockHolder)

/-- The program of a call. -/
def program (call : LockCall α) : Program interface (Outcome α) :=
  (LockHolder.withLock ⟨call.lock, none⟩ call.body).toProgram

/-! ## The parts of a call -/

/-- What is done with the lock: the body, on a holder that holds it. -/
def work (call : LockCall α) (handle : Nat) : Program interface (Except Failure α) :=
  (call.body ⟨call.lock, some handle⟩).toProgram

/-- How a call ends once the lock has been given back. -/
def atEnd (call : LockCall α) (result : Except Failure α) :
    Except Failure Unit → Program interface (Outcome α)
  | .ok () => .done (.ok (result, ⟨call.lock, none⟩))
  | .error failure => .done (.ok (.error failure, ⟨call.lock, none⟩))

/-- What follows the body. -/
def afterWork (call : LockCall α) (handle : Nat) (result : Except Failure α) :
    Program interface (Outcome α) :=
  (call.lock.release handle).toProgram.bind (call.atEnd result)

/-- What follows the taking of the lock. -/
def afterTaking (call : LockCall α) : Except Failure Nat → Program interface (Outcome α)
  | .ok handle => (call.work handle).bind (call.afterWork handle)
  | .error failure => .done (.ok (.error failure, ⟨call.lock, none⟩))

theorem program_eq (call : LockCall α) :
    call.program = call.lock.acquire.toProgram.bind call.afterTaking := by
  show Program.bind (Program.bind (Program.bind call.lock.acquire.toProgram _) _) _ = _
  simp only [Program.bind_assoc]
  congr 1
  funext taken
  cases taken with
  | error failure => rfl
  | ok handle =>
      show Program.bind (Program.bind (call.work handle) _) _ = _
      simp only [afterTaking, Program.bind_assoc]
      congr 1
      funext result
      show Program.bind (Program.bind (Program.bind (call.lock.release handle).toProgram _) _) _ = _
      simp only [Program.bind_assoc]
      refine congrArg _ ?_
      funext given
      cases given <;> rfl

/-- The body of a call runs: the call has taken the lock, and the body still has something to ask.
-/
inductive Runs (call : LockCall α) (said : List (Exchange interface)) (handle : Nat) : Prop
  | intro {before since : List (Exchange interface)} {request : Request}
      {next : request.Answer → Program interface (Except Failure α)}
      (isSaid : said = before ++ since)
      (takes : call.lock.acquire.toProgram.Leaves before (.done (.ok handle)))
      (works : (call.work handle).Leaves since (.ask request next))

/-! ## How far a call has come -/

/-- How far a call has come after some exchanges: by which file it holds the lock, and what is left
of its program. -/
inductive Reached (path : Path) (call : LockCall α) :
    Option Nat → List (Exchange interface) → Program interface (Outcome α) → Prop
  | takes {held : Option Nat} {said : List (Exchange interface)} {request : Request}
      {next : request.Answer → Program interface (Except Failure Nat)}
      (leaves : call.lock.acquire.toProgram.Leaves said (.ask request next))
      (heeds : Heeds path Taken held (.ask request next)) :
      Reached path call held said (.ask request fun answer => (next answer).bind call.afterTaking)
  | fails {said : List (Exchange interface)} {failure : Failure}
      (leaves : call.lock.acquire.toProgram.Leaves said (.done (.error failure))) :
      Reached path call none said (.done (.ok (.error failure, ⟨call.lock, none⟩)))
  | works {before since : List (Exchange interface)} {handle : Nat} {request : Request}
      {next : request.Answer → Program interface (Except Failure α)}
      (takes : call.lock.acquire.toProgram.Leaves before (.done (.ok handle)))
      (leaves : (call.work handle).Leaves since (.ask request next)) :
      Reached path call (some handle) (before ++ since)
        (.ask request fun answer => (next answer).bind (call.afterWork handle))
  | gives {before since last : List (Exchange interface)} {handle : Nat} {result : Except Failure α}
      {held : Option Nat} {request : Request}
      {next : request.Answer → Program interface (Except Failure Unit)}
      (takes : call.lock.acquire.toProgram.Leaves before (.done (.ok handle)))
      (works : (call.work handle).Leaves since (.done result))
      (leaves : (call.lock.release handle).toProgram.Leaves last (.ask request next))
      (heeds : Heeds path (fun held given => held = none ∧ given = .ok ()) held
        (.ask request next)) :
      Reached path call held (before ++ (since ++ last))
        (.ask request fun answer => (next answer).bind (call.atEnd result))
  | ended {before since last : List (Exchange interface)} {handle : Nat} {result : Except Failure α}
      (takes : call.lock.acquire.toProgram.Leaves before (.done (.ok handle)))
      (works : (call.work handle).Leaves since (.done result)) :
      Reached path call none (before ++ (since ++ last))
        (.done (.ok (result, ⟨call.lock, none⟩)))

namespace Reached

variable {path : Path} {call : LockCall α} {held : Option Nat} {handle : Nat}
  {said before since last : List (Exchange interface)}

theorem of_gives {result : Except Failure α} {left : Program interface (Except Failure Unit)}
    (takes : call.lock.acquire.toProgram.Leaves before (.done (.ok handle)))
    (works : (call.work handle).Leaves since (.done result))
    (leaves : (call.lock.release handle).toProgram.Leaves last left)
    (heeds : Heeds path (fun held given => held = none ∧ given = .ok ()) held left) :
    Reached path call held (before ++ (since ++ last)) (left.bind (call.atEnd result)) := by
  cases left with
  | ask request next => exact .gives takes works leaves heeds
  | done given =>
      cases heeds with
      | done holds =>
          obtain ⟨rfl, rfl⟩ := holds
          exact .ended takes works

variable (isPath : call.lock.path = path)
include isPath

theorem of_works {left : Program interface (Except Failure α)}
    (takes : call.lock.acquire.toProgram.Leaves before (.done (.ok handle)))
    (leaves : (call.work handle).Leaves since left) :
    Reached path call (some handle) (before ++ since) (left.bind (call.afterWork handle)) := by
  cases left with
  | ask request next => exact .works takes leaves
  | done result =>
      rw [← List.append_nil since]
      exact .of_gives takes leaves (.nothing _) (FileLock.release_heeds isPath handle handle)

theorem of_takes {left : Program interface (Except Failure Nat)}
    (leaves : call.lock.acquire.toProgram.Leaves said left) (heeds : Heeds path Taken held left) :
    Reached path call held said (left.bind call.afterTaking) := by
  cases left with
  | ask request next => exact .takes leaves heeds
  | done taken =>
      cases heeds with
      | done holds =>
          cases taken with
          | error failure =>
              obtain rfl : held = none := holds
              exact .fails leaves
          | ok handle =>
              obtain rfl : held = some handle := holds
              rw [← List.append_nil said]
              exact .of_works isPath leaves (.nothing _)

/-- A call that has not started yet. -/
theorem start : Reached path call none [] call.program := by
  rw [program_eq]
  exact .of_takes isPath (.nothing _) (FileLock.acquire_heeds isPath)

/-- **A request of a call** leaves the lock file alone, takes the lock or gives it back, unless it
is one of the body. -/
theorem step {request : Request} {next : request.Answer → Program interface (Outcome α)}
    (reached : Reached path call held said (.ask request next)) {machine machine' : Machine}
    (inOrder : InOrder machine.disk)
    (there : ∀ handle, held = some handle → machine.disk.fileAt? path = some handle)
    {answer : request.Answer} (replies : Replies machine request answer machine')
    (spares : ∀ handle, call.Runs said handle →
      machine'.disk.fileAt? path = machine.disk.fileAt? path) :
    ∃ held', Reached path call held' (said ++ [⟨request, answer⟩]) (next answer)
      ∧ Alters path machine.disk machine'.disk ⟨request, answer⟩ held held' := by
  cases reached with
  | takes leaves heeds =>
      obtain ⟨held', heeds', alters⟩ := heeds.step inOrder there replies
      exact ⟨held', .of_takes isPath (leaves.concat answer) heeds', alters⟩
  | works takes leaves =>
      rw [List.append_assoc]
      exact ⟨_, .of_works isPath takes (leaves.concat answer),
        .of_same (spares _ (.intro rfl takes leaves))⟩
  | gives takes works leaves heeds =>
      obtain ⟨held', heeds', alters⟩ := heeds.step inOrder there replies
      rw [List.append_assoc, List.append_assoc]
      exact ⟨held', .of_gives takes works (leaves.concat answer) heeds', alters⟩

omit isPath

variable {left : Program interface (Outcome α)} (reached : Reached path call held said left)
include reached

/-- While its body runs a call holds the lock by the file of the handle. -/
theorem held_of_runs (runs : call.Runs said handle) : held = some handle := by
  obtain ⟨isSaid, takes', works'⟩ := runs
  cases reached with
  | takes leaves =>
      obtain ⟨_, isAsking⟩ := (takes'.goesOn (isSaid ▸ leaves)).of_done
      cases isAsking
  | fails leaves =>
      obtain ⟨_, isError⟩ := (takes'.goesOn (isSaid ▸ leaves)).of_done
      cases isError
  | works takes leaves =>
      obtain ⟨_, isHandle, _⟩ := takes.same_end takes' isSaid
      cases isHandle
      rfl
  | gives takes works leaves =>
      obtain ⟨_, isHandle, rfl⟩ := takes.same_end takes' isSaid
      cases isHandle
      obtain ⟨_, isAsking⟩ := (works.goesOn works').of_done
      cases isAsking
  | ended takes works =>
      obtain ⟨_, isHandle, rfl⟩ := takes.same_end takes' isSaid
      cases isHandle
      obtain ⟨_, isAsking⟩ := (works.goesOn works').of_done
      cases isAsking

/-- A call that has failed to take the lock has ended with the failure. -/
theorem of_failure {failure : Failure} (isSaid : said = before ++ since)
    (fails : call.lock.acquire.toProgram.Leaves before (.done (.error failure))) :
    since = [] ∧ left = .done (.ok (.error failure, ⟨call.lock, none⟩)) := by
  cases reached with
  | takes leaves =>
      obtain ⟨_, isAsking⟩ := (fails.goesOn (isSaid ▸ leaves)).of_done
      cases isAsking
  | fails leaves =>
      obtain ⟨nothing, isError⟩ := (fails.goesOn (isSaid ▸ leaves)).of_done
      cases isError
      exact ⟨nothing, rfl⟩
  | works takes leaves =>
      obtain ⟨_, isOk, _⟩ := takes.same_end fails isSaid
      cases isOk
  | gives takes works leaves =>
      obtain ⟨_, isOk, _⟩ := takes.same_end fails isSaid
      cases isOk
  | ended takes works =>
      obtain ⟨_, isOk, _⟩ := takes.same_end fails isSaid
      cases isOk

/-- A call that has ended does not hold the lock. -/
theorem held_of_done {outcome : Outcome α} (isDone : left = .done outcome) : held = none := by
  cases reached with
  | takes => cases isDone
  | fails => rfl
  | works => cases isDone
  | gives => cases isDone
  | ended => rfl

end Reached

/-! ## What holds of all calls -/

/-- A call creates the file of an identity at a path. -/
def creates (path : Path) (handle : Nat) : Exchange interface :=
  ⟨.disk (.openNew path), .ok handle⟩

/-- What has been exchanged after one exchange more, at a place. -/
def onceMore (said : Nat → List (Exchange interface)) (place : Nat)
    (exchange : Exchange interface) (other : Nat) : List (Exchange interface) :=
  said other ++ if other = place then [exchange] else []

/-- The files that have been created at a path have identities that have been given, and each has
been created once. -/
structure Distinct (path : Path) (disk : Disk) (said : Nat → List (Exchange interface)) : Prop where
  given : ∀ place handle, creates path handle ∈ said place → handle < disk.nextIdentity
  own : ∀ place place' handle, creates path handle ∈ said place →
    creates path handle ∈ said place' → place = place'

theorem Distinct.after {path : Path} {disk disk' : Disk}
    {said : Nat → List (Exchange interface)} (distinct : Distinct path disk said) {place : Nat}
    {exchange : Exchange interface} (later : disk.nextIdentity ≤ disk'.nextIdentity)
    (fresh : ∀ handle, exchange = creates path handle →
      handle = disk.nextIdentity ∧ disk'.nextIdentity = disk.nextIdentity + 1) :
    Distinct path disk' (onceMore said place exchange) := by
  have creation {other handle : Nat}
      (member : creates path handle ∈ onceMore said place exchange other) :
      creates path handle ∈ said other
        ∨ other = place ∧ handle = disk.nextIdentity ∧ disk'.nextIdentity = handle + 1 := by
    rcases List.mem_append.mp member with before | now
    · exact .inl before
    · split at now
      next here =>
        obtain ⟨rfl, next⟩ := fresh handle (List.mem_singleton.mp now).symm
        exact .inr ⟨here, rfl, next⟩
      next => cases now
  refine ⟨fun other handle member => ?_, fun other other' handle member member' => ?_⟩
  · rcases creation member with before | ⟨_, _, next⟩
    · exact Nat.lt_of_lt_of_le (distinct.given _ _ before) later
    · omega
  · rcases creation member with before | ⟨here, isNext, _⟩ <;>
      rcases creation member' with before' | ⟨here', isNext', _⟩
    · exact distinct.own _ _ _ before before'
    · exact absurd (distinct.given _ _ before) (by omega)
    · exact absurd (distinct.given _ _ before') (by omega)
    · rw [here, here']

/-- One call at most holds the lock, by a file that it has created itself and that is there. -/
structure Sole (path : Path) (origin disk : Disk) (said : Nat → List (Exchange interface))
    (held : Nat → Option Nat) : Prop where
  there : ∀ place handle, held place = some handle → disk.fileAt? path = some handle
  alone : ∀ place place' handle handle', held place = some handle → held place' = some handle' →
    place = place'
  created : ∀ place handle, held place = some handle → creates path handle ∈ said place
  vacant : path.Resolved → origin.fileAt? path = none → (∀ place, held place = none) →
    disk.fileAt? path = none

namespace Sole

variable {path : Path} {origin disk disk' : Disk} {said : Nat → List (Exchange interface)}
  {held : Nat → Option Nat}

/-- While nobody holds the lock there is nothing to be said but that no file is there. -/
theorem of_nobody (nobody : ∀ place, held place = none)
    (vacant : path.Resolved → origin.fileAt? path = none → disk.fileAt? path = none) :
    Sole path origin disk said held where
  there place handle holds := by
    rw [nobody] at holds
    cases holds
  alone place _ handle _ holds := by
    rw [nobody] at holds
    cases holds
  created place handle holds := by
    rw [nobody] at holds
    cases holds
  vacant resolved free _ := vacant resolved free

variable (sole : Sole path origin disk said held) (place : Nat) (exchange : Exchange interface)
include sole

/-- The file is left alone. -/
theorem keeps
    (kept : ∀ identity, disk.fileAt? path = some identity → disk'.fileAt? path = some identity)
    (nothing : path.Resolved → disk.fileAt? path = none → disk'.fileAt? path = none) :
    Sole path origin disk' (onceMore said place exchange) held where
  there _ _ holds := kept _ (sole.there _ _ holds)
  alone := sole.alone
  created _ _ holds := List.mem_append_left _ (sole.created _ _ holds)
  vacant resolved free nobody := nothing resolved (sole.vacant resolved free nobody)

/-- Whoever takes the lock finds that nobody holds it, and is the only one to hold it then. -/
theorem takes {handle : Nat} (free : disk.fileAt? path = none)
    (there : disk'.fileAt? path = some handle) :
    Sole path origin disk' (onceMore said place (creates path handle))
      (Function.update held place (some handle)) := by
  have nobody (other : Nat) : held other = none := by
    by_contra some
    obtain ⟨handle', holds⟩ := Option.ne_none_iff_exists'.mp some
    have isThere := sole.there _ _ holds
    rw [free] at isThere
    cases isThere
  have holder {other handle' : Nat}
      (holds : Function.update held place (some handle) other = some handle') :
      other = place ∧ handle' = handle := by
    by_cases here : other = place
    · subst here
      rw [Function.update_self] at holds
      exact ⟨rfl, (Option.some.inj holds).symm⟩
    · rw [Function.update_of_ne here, nobody] at holds
      cases holds
  refine ⟨fun other handle' holds => (holder holds).2 ▸ there,
    fun other other' _ _ holds holds' => (holder holds).1.trans (holder holds').1.symm,
    fun other handle' holds => ?_, fun _ _ none => ?_⟩
  · obtain ⟨rfl, rfl⟩ := holder holds
    rw [onceMore, if_pos rfl]
    exact List.mem_append_right _ List.mem_cons_self
  · have holds := none place
    rw [Function.update_self] at holds
    cases holds

/-- Where the lock has been given back nobody holds it. -/
theorem gives {handle : Nat} (holds : held place = some handle)
    (gone : disk'.fileAt? path = none) :
    Sole path origin disk' (onceMore said place exchange) (Function.update held place none) := by
  refine .of_nobody (fun other => ?_) fun _ _ => gone
  by_cases here : other = place
  · rw [here, Function.update_self]
  · rw [Function.update_of_ne here]
    by_contra some
    obtain ⟨handle', holds'⟩ := Option.ne_none_iff_exists'.mp some
    exact here (sole.alone _ _ _ _ holds' holds)

/-- A request does to the lock file what the program that asks may do to it. -/
theorem alters {held' : Option Nat} (alters : Alters path disk disk' exchange (held place) held') :
    Sole path origin disk' (onceMore said place exchange) (Function.update held place held') := by
  generalize isHeld : held place = now at alters
  cases alters with
  | keeps kept nothing =>
      rw [← isHeld, Function.update_eq_self]
      exact sole.keeps place exchange kept nothing
  | takes creates free there =>
      subst creates
      exact sole.takes place free there
  | gives there gone => exact sole.gives place exchange isHeld gone

end Sole

/-- Calls have come as far as they say, and one of them at most holds the lock. -/
structure Guarded (path : Path) (calls : List (LockCall α)) (origin : Disk)
    (pool : Pool (Outcome α)) (said : Nat → List (Exchange interface)) (held : Nat → Option Nat) :
    Prop where
  inOrder : InOrder pool.machine.disk
  reached : ∀ place call, calls[place]? = some call → ∃ left, pool.program? place = some left
    ∧ Reached path call (held place) (said place) left
  absent : ∀ place, calls[place]? = none → pool.program? place = none ∧ held place = none
  sole : Sole path origin pool.machine.disk said held
  distinct : Distinct path pool.machine.disk said

namespace Guarded

variable {path : Path} {calls : List (LockCall α)} {origin : Disk} {pool : Pool (Outcome α)}
  {said : Nat → List (Exchange interface)} {held : Nat → Option Nat}

theorem start (isPath : ∀ call ∈ calls, call.lock.path = path) {machine : Machine}
    (inOrder : InOrder machine.disk) :
    Guarded path calls machine.disk (Pool.start (calls.map program) machine) (fun _ => [])
      fun _ => none where
  inOrder := inOrder
  reached place call isCall :=
    ⟨call.program, by rw [Pool.program?_start, List.getElem?_map, isCall, Option.map_some],
      .start (isPath call (List.mem_of_getElem? isCall))⟩
  absent place noCall :=
    ⟨by rw [Pool.program?_start, List.getElem?_map, noCall, Option.map_none], rfl⟩
  sole := .of_nobody (fun _ => rfl) fun _ free => free
  distinct := ⟨fun _ _ member => (List.not_mem_nil member).elim,
    fun _ _ _ member => (List.not_mem_nil member).elim⟩

/-- What the program at a place asks does to the lock file what the call may do to it. -/
theorem asks (isPath : ∀ call ∈ calls, call.lock.path = path)
    (guarded : Guarded path calls origin pool said held) {place : Nat} {request : Request}
    {next : request.Answer → Program interface (Outcome α)}
    (isNext : pool.program? place = some (.ask request next)) {answer : request.Answer}
    {machine' : Machine} (replies : Replies pool.machine request answer machine')
    (spares : ∀ call handle, calls[place]? = some call → call.Runs (said place) handle →
      machine'.disk.fileAt? path = pool.machine.disk.fileAt? path) :
    ∃ call held', calls[place]? = some call
      ∧ Reached path call held' (said place ++ [⟨request, answer⟩]) (next answer)
      ∧ Alters path pool.machine.disk machine'.disk ⟨request, answer⟩ (held place) held' := by
  cases isCall : calls[place]? with
  | none =>
      rw [(guarded.absent place isCall).1] at isNext
      cases isNext
  | some call =>
      obtain ⟨left, isLeft, reached⟩ := guarded.reached place call isCall
      rw [isNext] at isLeft
      cases isLeft
      obtain ⟨held', reached', alters⟩ := reached.step
        (isPath call (List.mem_of_getElem? isCall)) guarded.inOrder (guarded.sole.there place)
        replies fun handle runs => spares call handle isCall runs
      exact ⟨call, held', rfl, reached', alters⟩

/-- **A turn** keeps the invariant, where no body touches the lock file. -/
theorem turn (isPath : ∀ call ∈ calls, call.lock.path = path)
    (guarded : Guarded path calls origin pool said held) (turn : Turn)
    (spares : ∀ place exchange call handle, pool.exchange? turn = some (place, exchange) →
      calls[place]? = some call → call.Runs (said place) handle →
      (pool.turn turn).machine.disk.fileAt? path = pool.machine.disk.fileAt? path) :
    ∃ held', Guarded path calls origin (pool.turn turn)
      (fun place => said place ++ pool.through place [turn]) held' := by
  cases pool.turn_turns turn with
  | idle nothing programs disk =>
      have same : (fun place => said place ++ pool.through place [turn]) = said := by
        funext place
        rw [Pool.through_of_none nothing, List.append_nil]
      rw [same]
      exact ⟨held, disk ▸ guarded.inOrder, fun place => programs place ▸ guarded.reached place,
        fun place => programs place ▸ guarded.absent place, disk ▸ guarded.sole,
        disk ▸ guarded.distinct⟩
  | @asks place request next answer asked isNext replies programs =>
      obtain ⟨call, held', isCall, reached', alters⟩ := guarded.asks isPath isNext replies
        fun call handle => spares place _ call handle asked
      have said' : (fun other => said other ++ pool.through other [turn])
          = onceMore said place ⟨request, answer⟩ := by
        funext other
        rw [Pool.through_of_exchange asked]
        rfl
      rw [said']
      refine ⟨Function.update held place held', replies.inOrder guarded.inOrder,
        fun other call' isCall' => ?_, fun other noCall => ?_, guarded.sole.alters place _ alters,
        guarded.distinct.after replies.nextIdentity_le fun handle isCreation => ?_⟩
      · rw [programs, onceMore]
        by_cases isTurn : other = place
        · subst isTurn
          rw [isCall] at isCall'
          cases isCall'
          rw [if_pos rfl, if_pos rfl, Function.update_self]
          exact ⟨_, rfl, reached'⟩
        · rw [if_neg isTurn, if_neg isTurn, Function.update_of_ne isTurn, List.append_nil]
          exact guarded.reached other call' isCall'
      · have elsewhere : other ≠ place := by
          rintro rfl
          rw [isCall] at noCall
          cases noCall
        rw [programs, if_neg elsewhere, Function.update_of_ne elsewhere]
        exact guarded.absent other noCall
      · cases isCreation
        exact replies.of_openNew

end Guarded

/-! ## Runs -/

/-- Calls that have not started. -/
def started (calls : List (LockCall α)) (machine : Machine) : Pool (Outcome α) :=
  .start (calls.map program) machine

section

variable (path : Path) (calls : List (LockCall α)) (machine : Machine) (turns : List Turn)

/-- The body of the call at a place runs after some turns. -/
def RunsAt (place handle : Nat) : Prop :=
  ∃ call, calls[place]? = some call
    ∧ call.Runs ((started calls machine).through place turns) handle

/-- No body ever changes which file the path leads to. -/
def Spares : Prop :=
  ∀ earlier turn later, turns = earlier ++ turn :: later →
    ∀ place exchange handle, ((started calls machine).afterTurns earlier).exchange? turn
        = some (place, exchange) →
      RunsAt calls machine earlier place handle →
      ((started calls machine).afterTurns (earlier ++ [turn])).machine.disk.fileAt? path
        = ((started calls machine).afterTurns earlier).machine.disk.fileAt? path

/-- What a lock file is good for, at the end of some turns. -/
structure Excludes : Prop where
  /-- One body runs at most. -/
  one : ∀ place place' handle handle', RunsAt calls machine turns place handle →
    RunsAt calls machine turns place' handle' → place = place'
  /-- While a body runs the lock file is there, and it is the one that its call has created. -/
  there : ∀ place handle, RunsAt calls machine turns place handle →
    ((started calls machine).afterTurns turns).machine.disk.fileAt? path = some handle
      ∧ creates path handle ∈ (started calls machine).through place turns
  /-- A call that could not take the lock has ended with the reason, and has asked for nothing else.
  -/
  fails : ∀ place call before since failure, calls[place]? = some call →
    (started calls machine).through place turns = before ++ since →
    call.lock.acquire.toProgram.Leaves before (.done (.error failure)) →
    since = [] ∧ ((started calls machine).afterTurns turns).program? place
      = some (.done (.ok (.error failure, ⟨call.lock, none⟩)))
  /-- A lock file is only ever removed by the call that has created it. -/
  removes : ∀ earlier turn later handle, turns = earlier ++ turn :: later →
    ((started calls machine).afterTurns earlier).machine.disk.fileAt? path = some handle →
    ((started calls machine).afterTurns (earlier ++ [turn])).machine.disk.fileAt? path
      ≠ some handle →
    ∃ place exchange, ((started calls machine).afterTurns earlier).exchange? turn
        = some (place, exchange)
      ∧ creates path handle ∈ (started calls machine).through place earlier
  /-- No two calls have created the same file. -/
  own : ∀ place place' handle, creates path handle ∈ (started calls machine).through place turns →
    creates path handle ∈ (started calls machine).through place' turns → place = place'
  /-- Once all calls have ended there is no lock file, if there was none before. -/
  gone : path.Resolved → machine.disk.fileAt? path = none →
    ∀ results, ((started calls machine).afterTurns turns).results? = some results →
      ((started calls machine).afterTurns turns).machine.disk.fileAt? path = none

end

section

variable {path : Path} {calls : List (LockCall α)} {machine : Machine} {turns : List Turn}

theorem Spares.of_append {later : List Turn} (spares : Spares path calls machine (turns ++ later)) :
    Spares path calls machine turns := by
  intro earlier turn rest isTurn
  exact spares earlier turn (rest ++ later) (by rw [isTurn, List.append_assoc, List.cons_append])

variable (isPath : ∀ call ∈ calls, call.lock.path = path) (inOrder : InOrder machine.disk)
include isPath inOrder

/-- After any turns the invariant holds. -/
theorem guarded_afterTurns (spares : Spares path calls machine turns) :
    ∃ held, Guarded path calls machine.disk ((started calls machine).afterTurns turns)
      (fun place => (started calls machine).through place turns) held := by
  induction turns using List.reverseRecOn with
  | nil => exact ⟨_, .start isPath inOrder⟩
  | append_singleton turns turn ih =>
      obtain ⟨held, guarded⟩ := ih spares.of_append
      have last := spares turns turn [] rfl
      simp only [Pool.afterTurns_concat, Pool.through_concat] at last ⊢
      exact guarded.turn isPath turn fun place exchange call handle asked isCall runs =>
        last place exchange handle asked ⟨call, isCall, runs⟩

/-- **A lock file lets one in at a time.** -/
theorem excludes (spares : Spares path calls machine turns) :
    Excludes path calls machine turns := by
  obtain ⟨held, now⟩ := guarded_afterTurns isPath inOrder spares
  have holds {place handle : Nat} (runs : RunsAt calls machine turns place handle) :
      held place = some handle := by
    obtain ⟨call, isCall, runs⟩ := runs
    obtain ⟨left, _, reached⟩ := now.reached place call isCall
    exact reached.held_of_runs runs
  refine ⟨fun place place' handle handle' runs runs' =>
      now.sole.alone _ _ _ _ (holds runs) (holds runs'), fun place handle runs =>
      ⟨now.sole.there _ _ (holds runs), now.sole.created _ _ (holds runs)⟩, ?_, ?_,
      now.distinct.own, ?_⟩
  · intro place call before since failure isCall isSaid fails
    obtain ⟨left, isLeft, reached⟩ := now.reached place call isCall
    obtain ⟨nothing, rfl⟩ := reached.of_failure isSaid fails
    exact ⟨nothing, isLeft⟩
  · intro earlier turn later handle isTurn found lost
    rw [isTurn] at spares
    obtain ⟨heldThen, guardedThen⟩ := guarded_afterTurns isPath inOrder spares.of_append
    have last := spares earlier turn later rfl
    simp only [Pool.afterTurns_concat] at last lost
    cases ((started calls machine).afterTurns earlier).turn_turns turn with
    | idle _ _ disk =>
        rw [disk] at lost
        exact absurd found lost
    | @asks place request next answer asked isNext replies _ =>
        obtain ⟨call, held', isCall, _, alters⟩ := guardedThen.asks isPath isNext replies
          fun call handle isCall runs => last place _ handle asked ⟨call, isCall, runs⟩
        refine ⟨place, _, asked, ?_⟩
        generalize isHeld : heldThen place = heldNow at alters
        cases alters with
        | keeps kept => exact absurd (kept _ found) lost
        | takes _ free =>
            rw [free] at found
            cases found
        | gives there =>
            rw [there] at found
            cases found
            exact guardedThen.sole.created _ _ isHeld
  · intro resolved nothing results areResults
    refine now.sole.vacant resolved nothing fun place => ?_
    cases isCall : calls[place]? with
    | none => exact (now.absent place isCall).2
    | some call =>
        obtain ⟨left, isLeft, reached⟩ := now.reached place call isCall
        rw [Pool.program?_of_results areResults] at isLeft
        obtain ⟨outcome, _, isDone⟩ := Option.map_eq_some_iff.mp isLeft
        exact reached.held_of_done isDone.symm

end

/-! ## Bodies that touch no names -/

/-- A request that neither makes nor moves nor removes an entry. -/
def KeepsNames : Request → Prop
  | .disk (.makeDirectories _) | .disk (.openNew _) | .disk (.openEmpty _) | .disk (.rename _ _)
  | .disk (.link _ _) | .disk (.unlink _) | .disk (.removeTree _) => False
  | _ => True

theorem KeepsNames.fileAt? {request : Request} (keeps : KeepsNames request) (path : Path)
    {machine machine' : Machine} {answer : request.Answer}
    (replies : Replies machine request answer machine') :
    machine'.disk.fileAt? path = machine.disk.fileAt? path := by
  cases replies with
  | fails _ fault => exact fault.fileAt?_leaves _ _ _
  | answers =>
      cases request with
      | disk call =>
          cases call with
          | write handle content => exact Disk.fileAt?_setContent _ _ _ _
          | makeDirectories | openNew | openEmpty | rename | link | unlink | removeTree =>
              exact keeps.elim
          | _ => rfl
      | _ => rw [Replies.same_disk (.answers _) fun _ same => by cases same]

/-- What a call asks while its body runs is asked by the body. -/
theorem Runs.asks {call : LockCall α} {said : List (Exchange interface)} {handle : Nat}
    (runs : call.Runs said handle) {allowed : Request → Prop}
    (asks : ∀ handle, (call.work handle).Asks allowed) {request : Request}
    {next : request.Answer → Program interface (Outcome α)}
    (leaves : call.program.Leaves said (.ask request next)) : allowed request := by
  obtain ⟨rfl, takes, works⟩ := runs
  rw [program_eq] at leaves
  have left := (takes.bind call.afterTaking).append (works.bind (call.afterWork handle))
  cases left.unique leaves
  cases (asks handle).of_leaves works with
  | ask isAllowed _ => exact isAllowed

/-- Bodies that touch no names spare the lock file. -/
theorem spares_of_keepsNames (path : Path) {calls : List (LockCall α)} (machine : Machine)
    (turns : List Turn)
    (keeps : ∀ call ∈ calls, ∀ handle, (call.work handle).Asks KeepsNames) :
    Spares path calls machine turns := by
  rintro earlier turn later - place exchange handle asked ⟨call, isCall, runs⟩
  rw [Pool.afterTurns_concat]
  cases ((started calls machine).afterTurns earlier).turn_turns turn with
  | idle _ _ disk => rw [disk]
  | asks asked' isNext replies =>
      rw [asked] at asked'
      cases asked'
      have there : (started calls machine).program? place = some call.program := by
        rw [started, Pool.program?_start, List.getElem?_map, isCall, Option.map_some]
      obtain ⟨left, isLeft, leaves⟩ := Pool.leaves_through _ earlier place there
      rw [isNext] at isLeft
      cases isLeft
      exact (runs.asks (keeps call (List.mem_of_getElem? isCall)) leaves).fileAt? path replies

/-! ## Three calls -/

/-- The path of a lock file. -/
def usersLock : Path := ["data", ".locks", "users.lock"]

/-- A call that waits for some milliseconds and reads its own lock file while it holds the lock. -/
def readsLock (timeout : Nat) : LockCall String where
  lock := ⟨usersLock, .ofNat timeout, .ofNumber (.ofNat timeout), .ofNat 10, ⟨.error, true⟩⟩
  body holder := Host.callAs (.read holder.lock.path) (holder.lock.callFailure "read")

/-- Three calls. -/
def crowd : List (LockCall String) :=
  [100, 100, 0].map readsLock

/-- The first call cannot write its record, the second one waits for it, and the third one does not
wait long enough. -/
def crowded : List Turn :=
  List.replicate 5 (.goes 0) ++ List.replicate 5 (.goes 1) ++ [.fails 0 ⟨.noSpace, some "\x7b"⟩]
    ++ List.replicate 2 (.goes 0) ++ List.replicate 4 (.goes 1) ++ List.replicate 3 (.goes 2)
    ++ [.passes 1, .goes 2] ++ List.replicate 3 (.goes 1)

theorem crowded_excludes :
    (∀ call ∈ crowd, call.lock.path = usersLock) ∧ InOrder Machine.start.disk
      ∧ Spares usersLock crowd Machine.start crowded
      ∧ Excludes usersLock crowd Machine.start crowded
      ∧ ((started crowd Machine.start).afterTurns crowded).results?.map
          (·.map fun outcome => outcome.toOption.bind (·.1.toOption))
        = some [none, some "\x7b\"pid\":1,\"acquiredAt\":\"1970-01-01T00:00:00.010Z\"\x7d", none] := by
  have isPath : ∀ call ∈ crowd, call.lock.path = usersLock := by
    intro call member
    obtain ⟨timeout, _, rfl⟩ := List.mem_map.mp member
    rfl
  have spares : Spares usersLock crowd Machine.start crowded := by
    refine spares_of_keepsNames _ _ _ fun call member handle => ?_
    obtain ⟨timeout, _, rfl⟩ := List.mem_map.mp member
    exact .ask trivial fun _ => .done _
  exact ⟨isPath, Disk.inOrder_empty, spares, excludes isPath Disk.inOrder_empty spares,
    by decide +kernel⟩

end LockCall

end DocStore
