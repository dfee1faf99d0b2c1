import DocStore.Proofs.Files.Locks
/-!
# The protocol of lock files

A program that changes a collection while others are about does so in stages (`Stage`): it asks for
the directory of the lock files, waits until it has created the lock file of the collection, works
on the collection alone, and removes the lock file when the collection is in order again.  `Obeys`
says of a program that it keeps to this, with one rule for each kind of request and for what it may
be told; a program that holds the lock is told by its own view of the collection alone.

`FileLock.acquire_obeys` and `FileLock.release_obeys` are the two ends of the protocol, and
`Confined.obeys` is what stands between them.
-/

set_option autoImplicit false

namespace DocStore

open Disk (Becomes Branch Path Place Plain Sees)
open Files (Named)
open Host (Action Confined Machine marked)

/-! ## Stages -/

/-- What a program owns that holds a lock: the first names below which it works, and what it sees
there. -/
structure Land where
  heads : Set String
  view : Branch

/-- What is known of a program that holds the lock of a collection. -/
structure Tenure extends Land where
  /-- What was kept in the collection when the lock was taken. -/
  before : Cabinet
  /-- Which calls of the identifier generator it has made since. -/
  drawn : List Nat
  /-- The handle of the lock file. -/
  handle : Nat

/-- How far a program has come that changes a collection. -/
inductive Stage where
  /-- It has asked for nothing yet. -/
  | outside
  /-- It waits for the lock, perhaps after it has been refused. -/
  | waiting (refused : Bool)
  | holding (tenure : Tenure)
  /-- It has given the lock back, after it has made some calls of the identifier generator and
  changed what is kept. -/
  | past (before : Cabinet) (drawn : List Nat) (after : Cabinet)

/-- A request that changes nothing on the disk. -/
def Host.Request.Quiet (request : Host.Request) : Prop :=
  ∀ machine, (Machine.answer request machine).2.disk = machine.disk
    ∧ machine.Same (Machine.answer request machine).2

/-- What programs have in common that work below the same root. -/
structure Setting where
  /-- The disk before any of them has changed it. -/
  origin : Disk
  /-- The place of the root. -/
  home : Place
  /-- The layouts in which they write. -/
  layouts : Set Json.Layout
  /-- What the calls of the identifier generator give. -/
  generator : Nat → Identifier.Generated

/-- The names below a root that lead to the lock file of a collection. -/
def lockNames (name : String) : List String := [lockDirectory, name ++ ".lock"]

/-- **The protocol.**  A program works below a root on the collection of a name, from some stage on;
`ends` tells how it ends, and at which stage. -/
inductive Obeys (setting : Setting) (root : Path) (name : String) {α : Type}
    (ends : Stage → α → Prop) : Stage → Program Host.interface α → Prop
  | done {stage : Stage} {result : α} (holds : ends stage result) :
      Obeys setting root name ends stage (.done result)
  | quiet {stage : Stage} {request : Host.Request}
      {next : request.Answer → Program Host.interface α} (isQuiet : request.Quiet)
      (goesOn : ∀ machine,
        Obeys setting root name ends stage (next (Machine.answer request machine).1)) :
      Obeys setting root name ends stage (.ask request next)
  | comes {next : Except Disk.Errno (Option Disk.Obstacle) → Program Host.interface α}
      (named : Named name)
      (goesOn : Obeys setting root name ends (.waiting false) (next (.ok none))) :
      Obeys setting root name ends .outside
        (.ask (.disk (.makeDirectories (root.trimmed ++ [lockDirectory]))) next)
  | opens {refused : Bool} {next : Except Disk.Errno Nat → Program Host.interface α}
      (refusal : Obeys setting root name ends (.waiting true) (next (.error .exists)))
      (obtained : ∀ (cabinet : Cabinet) (view : Branch) (handle : Nat),
        Keeps setting.layouts cabinet (fun _ => none) view → view.Inside {name} →
        Obeys setting root name ends (.holding ⟨⟨{name}, view⟩, cabinet, [], handle⟩)
          (next (.ok handle))) :
      Obeys setting root name ends (.waiting refused)
        (.ask (.disk (.openNew (root.trimmed ++ lockNames name))) next)
  | signs {tenure : Tenure} {content : String}
      {next : Except Disk.Errno Unit → Program Host.interface α}
      (goesOn : Obeys setting root name ends (.holding tenure) (next (.ok ()))) :
      Obeys setting root name ends (.holding tenure)
        (.ask (.disk (.write tenure.handle content)) next)
  | generates {tenure : Tenure} {next : Identifier.Generated → Program Host.interface α}
      (goesOn : ∀ number, Obeys setting root name ends
        (.holding { tenure with drawn := tenure.drawn ++ [number] })
        (next (setting.generator number))) :
      Obeys setting root name ends (.holding tenure) (.ask .generate next)
  | freshName {tenure : Tenure} {next : String → Program Host.interface α}
      (goesOn : ∀ number, Obeys setting root name ends
        (.holding { tenure with heads := tenure.heads ∪ marked number })
        (next (Machine.freshName number))) :
      Obeys setting root name ends (.holding tenure) (.ask .freshName next)
  | acts {tenure : Tenure} {request : Host.Request}
      {next : request.Answer → Program Host.interface α} (after : Machine → Branch → Branch)
      (same : ∀ machine, Machine.Same machine (Machine.answer request machine).2)
      (becomes : ∀ machine branch,
        Sees setting.origin setting.home tenure.heads tenure.view branch machine.disk →
        Becomes setting.origin setting.home tenure.heads branch (after machine branch)
          (Machine.answer request machine).2.disk)
      (advances : ∀ machine branch,
        Sees setting.origin setting.home tenure.heads tenure.view branch machine.disk →
        Advances setting.layouts machine.disk.nextIdentity tenure.view (after machine branch))
      (goesOn : ∀ machine branch,
        Sees setting.origin setting.home tenure.heads tenure.view branch machine.disk →
        Obeys setting root name ends (.holding { tenure with view := after machine branch })
          (next (Machine.answer request machine).1)) :
      Obeys setting root name ends (.holding tenure) (.ask request next)
  | unlinks {tenure : Tenure} {cabinet : Cabinet}
      {next : Except Disk.Errno Unit → Program Host.interface α}
      (keeps : Keeps setting.layouts cabinet (fun _ => none) tenure.view)
      (inside : tenure.view.Inside {name})
      (goesOn : Obeys setting root name ends (.past tenure.before tenure.drawn cabinet)
        (next (.ok ()))) :
      Obeys setting root name ends (.holding tenure)
        (.ask (.disk (.unlink (root.trimmed ++ lockNames name))) next)

section

variable {setting : Setting} {root : Path} {name : String} {α β : Type}
  {ends ends' : Stage → α → Prop} {stage : Stage} {program : Program Host.interface α}

/-! ## Rules -/

namespace Obeys

/-- One program after another. -/
theorem bind {next : α → Program Host.interface β} {ends' : Stage → β → Prop}
    (obeys : Obeys setting root name ends stage program)
    (goesOn : ∀ stage result, ends stage result →
      Obeys setting root name ends' stage (next result)) :
    Obeys setting root name ends' stage (program.bind next) := by
  induction obeys with
  | done holds => exact goesOn _ _ holds
  | quiet isQuiet _ ih => exact .quiet isQuiet ih
  | comes named _ ih => exact .comes named ih
  | opens _ _ refused obtained => exact .opens refused obtained
  | signs _ ih => exact .signs ih
  | generates _ ih => exact .generates ih
  | freshName _ ih => exact .freshName ih
  | acts after same becomes advances _ ih => exact .acts after same becomes advances ih
  | unlinks keeps inside _ ih => exact .unlinks keeps inside ih

theorem mono (obeys : Obeys setting root name ends stage program)
    (implies : ∀ stage result, ends stage result → ends' stage result) :
    Obeys setting root name ends' stage program := by
  have goes : Obeys setting root name ends' stage (program.bind Program.done) :=
    obeys.bind fun stage result holds => .done (implies stage result holds)
  rwa [Program.bind_done] at goes

end Obeys

/-- What is confined to the land of a holder obeys the protocol, and leaves it the holder. -/
theorem Host.Confined.obeys (tenure : Tenure) {ends : Branch → α → Prop}
    (confined : Confined (Advances setting.layouts) setting.origin setting.home ends tenure.heads
      tenure.view program) :
    Obeys setting root name (fun stage result => ∃ heads view, tenure.heads ⊆ heads
      ∧ stage = .holding { tenure with heads, view } ∧ ends view result)
      (.holding tenure) program := by
  obtain ⟨⟨heads, view⟩, before, drawn, handle⟩ := tenure
  dsimp only at confined ⊢
  induction confined with
  | done holds => exact .done ⟨_, _, Set.Subset.refl _, rfl, holds⟩
  | freshName _ ih =>
      refine .freshName fun number => (ih number).mono fun stage result ended => ?_
      obtain ⟨heads', view', more, isStage, holds⟩ := ended
      exact ⟨heads', view', Set.subset_union_left.trans more, isStage, holds⟩
  | ask after same becomes moved _ ih =>
      refine .acts after same becomes (fun machine branch sees => ?_) ih
      cases moved machine branch sees with
      | refl => exact .refl _
      | single advances => exact advances

end

/-! ## Actions -/

section

variable {setting : Setting} {root : Path} {name : String} {α β : Type} {stage stage' : Stage}
  {ends : Stage → Except Failure β → Prop}

namespace Obeys

/-- One action after another that succeeds. -/
theorem bind_ok {first : Action α} {next : α → Action β} {value : α}
    (obeys : Obeys setting root name (fun reached result => reached = stage' ∧ result = .ok value)
      stage first.toProgram)
    (goesOn : Obeys setting root name ends stage' (next value).toProgram) :
    Obeys setting root name ends stage (first >>= next).toProgram := by
  show Obeys _ _ _ _ _ (first.toProgram.bind (ExceptT.bindCont next))
  refine obeys.bind fun reached result ended => ?_
  obtain ⟨rfl, rfl⟩ := ended
  exact goesOn

/-- A request that changes nothing goes on with its answer. -/
theorem ask_bind {request : Host.Request} {next : request.Answer → Action β}
    (isQuiet : request.Quiet)
    (goesOn : ∀ machine,
      Obeys setting root name ends stage (next (Machine.answer request machine).1).toProgram) :
    Obeys setting root name ends stage (Host.ask request >>= next).toProgram :=
  .quiet isQuiet goesOn

/-- Printing the line of an event changes nothing. -/
theorem log (logger : Log.Logger) (event : Log.Event) :
    Obeys setting root name (fun reached result => reached = stage ∧ result = .ok ()) stage
      (Host.log logger event).toProgram := by
  unfold Host.log
  split
  · refine ask_bind (fun _ => ⟨rfl, rfl, rfl, rfl⟩) fun machine => ?_
    unfold Host.printLog
    split
    · exact .quiet (fun _ => ⟨rfl, rfl, rfl, rfl⟩) fun _ => .done ⟨rfl, rfl⟩
    · exact .done ⟨rfl, rfl⟩
  · exact .done ⟨rfl, rfl⟩

end Obeys

end

/-! ## Taking and giving back a lock -/

namespace FileLock

/-- Why a lock has not been obtained. -/
inductive Refusal (lock : FileLock) : Failure → Prop
  /-- It has been waited for too long. -/
  | timeout : Refusal lock (.ofFault (.lockTimeout lock.path.text lock.timeoutShown))
  /-- It has been tried for as often as can be. -/
  | exhausted : Refusal lock (.stated "The clock does not advance")

/-- How taking a lock ends. -/
inductive Acquired (setting : Setting) (lock : FileLock) (name : String) :
    Stage → Except Failure Nat → Prop
  | refused {failure : Failure} (refusal : lock.Refusal failure) :
      Acquired setting lock name (.waiting true) (.error failure)
  | obtained {cabinet : Cabinet} {view : Branch} {handle : Nat}
      (keeps : Keeps setting.layouts cabinet (fun _ => none) view) (inside : view.Inside {name}) :
      Acquired setting lock name (.holding ⟨⟨{name}, view⟩, cabinet, [], handle⟩) (.ok handle)

/-- The record is written into the lock file of the holder. -/
theorem sign_obeys {setting : Setting} {root : Path} {name : String} {lock : FileLock}
    (tenure : Tenure) :
    Obeys setting root name (fun reached result => reached = .holding tenure ∧ result = .ok ())
      (.holding tenure) (lock.sign tenure.handle).toProgram := by
  refine .ask_bind (fun _ => ⟨rfl, rfl, rfl, rfl⟩) fun _ => ?_
  refine .ask_bind (fun _ => ⟨rfl, rfl, rfl, rfl⟩) fun _ => ?_
  exact .signs (.done ⟨rfl, rfl⟩)

section

variable {setting : Setting} {root : Path} {name : String} {lock : FileLock}
  (isPath : lock.path = root.trimmed ++ lockNames name)
include isPath

/-- Every attempt but the last is made after a refusal. -/
theorem attempts_obeys (start : Int) (budget : Nat) {refused : Bool}
    (tried : budget = 0 → refused = true) (waited : Bool) :
    Obeys setting root name (Acquired setting lock name) (.waiting refused)
      (lock.attempts start budget waited).toProgram := by
  induction budget generalizing refused waited with
  | zero =>
      rw [tried rfl]
      exact .done (.refused .exhausted)
  | succ budget ih =>
      have again : Obeys setting root name (Acquired setting lock name) (.waiting true)
          (lock.attempts start budget true).toProgram := ih (fun _ => rfl) true
      unfold attempts
      rw [isPath]
      refine .opens ?_ fun cabinet view handle keeps inside => ?_
      · show Obeys _ _ _ _ _ (Host.ask .now >>= _ : Action Nat).toProgram
        refine .ask_bind (fun _ => ⟨rfl, rfl, rfl, rfl⟩) fun machine => ?_
        dsimp only
        split
        · rw [← isPath]
          exact .done (.refused .timeout)
        · have pauses : Obeys setting root name (Acquired setting lock name) (.waiting true)
              (Host.ask (.pause lock.pause) >>= fun _ => lock.attempts start budget true).toProgram :=
            .ask_bind (fun _ => ⟨rfl, rfl, rfl, rfl⟩) fun _ => again
          split
          · exact .bind_ok (.log _ _) pauses
          · exact pauses
      · exact .bind_ok (sign_obeys ⟨⟨{name}, view⟩, cabinet, [], handle⟩)
          (.done (.obtained keeps inside))

/-- **Taking a lock** obeys the protocol. -/
theorem acquire_obeys (isParent : lock.path.parent = root.trimmed ++ [lockDirectory])
    (named : Named name) :
    Obeys setting root name (Acquired setting lock name) .outside lock.acquire.toProgram := by
  unfold acquire
  refine .ask_bind (fun _ => ⟨rfl, rfl, rfl, rfl⟩) fun machine => ?_
  obtain ⟨others, budget⟩ := lock.exists_maxAttempts
  rw [isParent, budget]
  exact .comes named (attempts_obeys isPath _ _ (fun none => by cases none) false)

/-- **Giving a lock back** obeys the protocol when the collection is in order. -/
theorem release_obeys {tenure : Tenure} {cabinet : Cabinet}
    (keeps : Keeps setting.layouts cabinet (fun _ => none) tenure.view)
    (inside : tenure.view.Inside {name}) (handle : Nat) :
    Obeys setting root name (fun stage result =>
        stage = .past tenure.before tenure.drawn cabinet ∧ result = .ok ())
      (.holding tenure) (lock.release handle).toProgram := by
  unfold release
  rw [isPath]
  exact .quiet (fun _ => ⟨rfl, rfl, rfl, rfl⟩) fun _ => .unlinks keeps inside (.done ⟨rfl, rfl⟩)

end

end FileLock

end DocStore
