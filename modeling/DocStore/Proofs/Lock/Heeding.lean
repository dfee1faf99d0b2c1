import DocStore.Lock.File
import DocStore.Proofs.Host.Faults
/-!
# Who heeds a lock file

A lock is held by whoever has created its file.  Programs that contend for it heed the file
(`Heeds`): they open it as a new one, remove it only while they hold it, and do nothing else that
could remove one or bring one into sight.  What a request of such a program does to the file is one
of three things (`Alters`): it leaves the file alone, takes the lock when there is no file, or gives
the lock back by removing the file that the program has created; `Heeds.step` says so also where a
fault befalls the call.

`FileLock.acquire_heeds` and `FileLock.release_heeds` say that taking a lock and giving it back heed
its file.
-/

set_option autoImplicit false

namespace DocStore

open Disk (InOrder Path)
open Host (Action Fault Machine Replies Request interface)

namespace FileLock

/-! ## What requests do to a lock file -/

/-- What a request does to the file at a path, for a program that holds the lock by a file before
and after it. -/
inductive Alters (path : Path) (before after : Disk) (exchange : Exchange interface) :
    Option Nat → Option Nat → Prop
  | keeps {held : Option Nat}
      (kept : ∀ identity, before.fileAt? path = some identity → after.fileAt? path = some identity)
      (nothing : path.Resolved → before.fileAt? path = none → after.fileAt? path = none) :
      Alters path before after exchange held held
  | takes {handle : Nat} (creates : exchange = ⟨.disk (.openNew path), .ok handle⟩)
      (free : before.fileAt? path = none) (there : after.fileAt? path = some handle) :
      Alters path before after exchange none (some handle)
  | gives {handle : Nat} (there : before.fileAt? path = some handle)
      (gone : after.fileAt? path = none) :
      Alters path before after exchange (some handle) none

theorem Alters.of_same {path : Path} {before after : Disk} {exchange : Exchange interface}
    {held : Option Nat} (same : after.fileAt? path = before.fileAt? path) :
    Alters path before after exchange held held :=
  .keeps (fun _ found => same.trans found) fun _ nothing => same.trans nothing

/-- A request that leaves the file at a path alone: it makes the directory of the file, writes, or
makes no call on the disk. -/
def Harmless (path : Path) : Request → Prop
  | .disk (.makeDirectories made) => made = path.parent
  | .disk (.write _ _) | .now | .pause _ | .processId | .print _ _ => True
  | _ => False

section

variable {path : Path} {machine machine' : Machine} (inOrder : InOrder machine.disk)

include inOrder in
theorem Harmless.alters {request : Request} (harmless : Harmless path request)
    {answer : request.Answer} (replies : Replies machine request answer machine')
    (held : Option Nat) :
    Alters path machine.disk machine'.disk ⟨request, answer⟩ held held := by
  cases replies with
  | fails _ fault => exact .of_same (fault.fileAt?_leaves _ _ _)
  | answers =>
      unfold Harmless at harmless
      split at harmless
      next made =>
        subst harmless
        exact .keeps (fun _ found => (Disk.builds_makeDirectories inOrder _).extended.fileAt? found)
          fun resolved nothing => Disk.fileAt?_makeDirectories inOrder resolved nothing
      next handle content => exact .of_same (Disk.fileAt?_setContent _ _ _ _)
      iterate 4 exact .of_same rfl
      exact harmless.elim

include inOrder in
/-- Opening a new file fails and changes nothing, or creates the file, which was not there. -/
theorem alters_openNew {answer : Except Disk.Errno Nat}
    (replies : Replies machine (.disk (.openNew path)) answer machine') :
    (∃ errno, answer = .error errno
        ∧ Alters path machine.disk machine'.disk ⟨.disk (.openNew path), answer⟩ none none)
      ∨ ∃ handle, answer = .ok handle ∧ Alters path machine.disk machine'.disk
          ⟨.disk (.openNew path), answer⟩ none (some handle) := by
  cases replies with
  | fails _ fault => exact .inl ⟨fault.errno, rfl, .of_same rfl⟩
  | answers =>
      cases opens : machine.disk.openNew path with
      | error errno =>
          rw [Machine.answer_openNew_error opens]
          exact .inl ⟨errno, rfl, .of_same rfl⟩
      | ok opened =>
          obtain ⟨handle, disk⟩ := opened
          obtain ⟨free, there⟩ := Disk.openNew_fileAt? inOrder opens
          rw [Machine.answer_openNew_ok opens]
          exact .inr ⟨handle, rfl, .takes rfl free there⟩

include inOrder in
/-- The file that is there is removed, whatever happens. -/
theorem alters_unlink {handle : Nat} (there : machine.disk.fileAt? path = some handle)
    {answer : Except Disk.Errno Unit}
    (replies : Replies machine (.disk (.unlink path)) answer machine') :
    answer = .ok () ∧ Alters path machine.disk machine'.disk
      ⟨.disk (.unlink path), answer⟩ (some handle) none := by
  obtain ⟨disk, removes, gone⟩ := Disk.unlink_fileAt? inOrder there
  cases replies with
  | fails befalls => cases befalls
  | answers =>
      rw [Machine.answer_unlink_ok removes]
      exact ⟨rfl, .gives there gone⟩

end

/-! ## Heeding -/

/-- A program heeds the file at a path, while it holds the lock by the file of an identity or does
not hold it; `ends` tells how it ends. -/
inductive Heeds (path : Path) {β : Type} (ends : Option Nat → β → Prop) :
    Option Nat → Program interface β → Prop
  | done {held : Option Nat} {result : β} (holds : ends held result) :
      Heeds path ends held (.done result)
  | harmless {held : Option Nat} {request : Request} {next : request.Answer → Program interface β}
      (harmless : Harmless path request) (goesOn : ∀ answer, Heeds path ends held (next answer)) :
      Heeds path ends held (.ask request next)
  | opens {next : Except Disk.Errno Nat → Program interface β}
      (refused : ∀ errno, Heeds path ends none (next (.error errno)))
      (created : ∀ handle, Heeds path ends (some handle) (next (.ok handle))) :
      Heeds path ends none (.ask (.disk (.openNew path)) next)
  | closes {held : Option Nat} {handle : Nat} {next : Except Disk.Errno Unit → Program interface β}
      (goesOn : Heeds path ends held (next (.ok ()))) :
      Heeds path ends held (.ask (.disk (.close handle)) next)
  | unlinks {handle : Nat} {next : Except Disk.Errno Unit → Program interface β}
      (goesOn : Heeds path ends none (next (.ok ()))) :
      Heeds path ends (some handle) (.ask (.disk (.unlink path)) next)

namespace Heeds

variable {path : Path} {β γ : Type} {ends : Option Nat → β → Prop} {ends' : Option Nat → γ → Prop}
  {held : Option Nat}

/-- One program after another. -/
theorem bind {program : Program interface β} {next : β → Program interface γ}
    (heeds : Heeds path ends held program)
    (goesOn : ∀ held result, ends held result → Heeds path ends' held (next result)) :
    Heeds path ends' held (program.bind next) := by
  induction heeds with
  | done holds => exact goesOn _ _ holds
  | harmless harmless _ ih => exact .harmless harmless ih
  | opens _ _ refused created => exact .opens refused created
  | closes _ ih => exact .closes ih
  | unlinks _ ih => exact .unlinks ih

/-- **A request of a program that heeds the file** leaves the file alone, takes the lock or gives it
back, and the program goes on to heed the file. -/
theorem step {request : Request} {next : request.Answer → Program interface β}
    (heeds : Heeds path ends held (.ask request next)) {machine machine' : Machine}
    (inOrder : InOrder machine.disk)
    (there : ∀ handle, held = some handle → machine.disk.fileAt? path = some handle)
    {answer : request.Answer} (replies : Replies machine request answer machine') :
    ∃ held', Heeds path ends held' (next answer)
      ∧ Alters path machine.disk machine'.disk ⟨request, answer⟩ held held' := by
  cases heeds with
  | harmless harmless goesOn => exact ⟨held, goesOn answer, harmless.alters inOrder replies held⟩
  | opens refused created =>
      rcases alters_openNew inOrder replies with ⟨errno, rfl, alters⟩ | ⟨handle, rfl, alters⟩
      · exact ⟨none, refused errno, alters⟩
      · exact ⟨some handle, created handle, alters⟩
  | closes goesOn =>
      cases replies with
      | fails befalls => cases befalls
      | answers => exact ⟨held, goesOn, .of_same rfl⟩
  | @unlinks handle _ goesOn =>
      obtain ⟨rfl, alters⟩ := alters_unlink inOrder (there handle rfl) replies
      exact ⟨none, goesOn, alters⟩

section

variable {α : Type} {ends : Option Nat → Except Failure α → Prop}

/-- An action that asks a harmless request first. -/
theorem ask_bind {request : Request} {next : request.Answer → Action α}
    (isHarmless : Harmless path request)
    (goesOn : ∀ answer, Heeds path ends held (next answer).toProgram) :
    Heeds path ends held (Host.ask request >>= next).toProgram :=
  .harmless isHarmless goesOn

/-- One action after another that succeeds and leaves the lock as it is. -/
theorem bind_ok {first : Action β} {next : β → Action α}
    (heeds : Heeds path (fun held' result => held' = held ∧ ∃ value, result = .ok value) held
      first.toProgram)
    (goesOn : ∀ value, Heeds path ends held (next value).toProgram) :
    Heeds path ends held (first >>= next).toProgram := by
  refine heeds.bind fun held' result ended => ?_
  obtain ⟨rfl, value, rfl⟩ := ended
  exact goesOn value

theorem log (logger : Log.Logger) (event : Log.Event) :
    Heeds path (fun held' result => held' = held ∧ ∃ value, result = .ok value) held
      (Host.log logger event).toProgram := by
  unfold Host.log
  split
  · refine ask_bind trivial fun time => ?_
    unfold Host.printLog
    split
    · exact .harmless trivial fun _ => .done ⟨rfl, _, rfl⟩
    · exact .done ⟨rfl, _, rfl⟩
  · exact .done ⟨rfl, _, rfl⟩

end

end Heeds

/-! ## Taking a lock and giving it back -/

/-- Who has taken a lock holds it by the file that he has created; who has failed does not hold
it. -/
def Taken (held : Option Nat) (result : Except Failure Nat) : Prop :=
  held = result.toOption

variable {lock : FileLock} {path : Path} (isPath : lock.path = path)
include isPath

/-- Giving a lock back removes its file. -/
theorem release_heeds (handle handle' : Nat) :
    Heeds path (fun held result => held = none ∧ result = .ok ()) (some handle)
      (lock.release handle').toProgram := by
  unfold release
  rw [isPath]
  exact .closes (.unlinks (.done ⟨rfl, rfl⟩))

/-- A lock whose record cannot be written is given back. -/
theorem sign_heeds (handle : Nat) :
    Heeds path (fun held result => (held = some handle ∧ result = .ok ())
      ∨ held = none ∧ ∃ failure, result = .error failure) (some handle)
      (lock.sign handle).toProgram := by
  unfold sign
  refine .ask_bind trivial fun processId => .ask_bind trivial fun time => ?_
  refine .harmless trivial fun written => ?_
  cases written with
  | ok => exact .done (.inl ⟨rfl, rfl⟩)
  | error errno =>
      refine (release_heeds isPath handle handle).bind fun held result ended => ?_
      obtain ⟨rfl, rfl⟩ := ended
      exact .done (.inr ⟨rfl, _, rfl⟩)

theorem attempts_heeds (start : Int) (budget : Nat) (waited : Bool) :
    Heeds path Taken none (lock.attempts start budget waited).toProgram := by
  induction budget generalizing waited with
  | zero => exact .done rfl
  | succ budget ih =>
      unfold attempts
      rw [isPath]
      refine .opens (fun errno => ?_) fun handle => ?_
      · show Heeds _ _ _ (if _ then _ else _ : Action Nat).toProgram
        split
        · refine .ask_bind trivial fun time => ?_
          dsimp only
          split
          · exact .done rfl
          · have pauses : Heeds path Taken none
                (Host.ask (.pause lock.pause) >>= fun _ =>
                  lock.attempts start budget true).toProgram :=
              .ask_bind trivial fun _ => ih true
            split
            · exact .bind_ok (.log _ _) fun _ => pauses
            · exact pauses
        · exact .done rfl
      · refine (sign_heeds isPath handle).bind fun held result ended => ?_
        rcases ended with ⟨rfl, rfl⟩ | ⟨rfl, failure, rfl⟩
        · exact .done rfl
        · exact .done rfl

/-- Taking a lock creates its file, or fails and leaves none. -/
theorem acquire_heeds : Heeds path Taken none lock.acquire.toProgram := by
  unfold acquire
  refine .ask_bind trivial fun start => ?_
  refine .harmless (show _ = _ by rw [isPath]) fun made => ?_
  rcases made with errno | none | obstacle
  · exact .done rfl
  · exact attempts_heeds isPath start _ false
  · exact .done rfl

end FileLock

end DocStore
