import DocStore.Proofs.Database.Concurrent
import DocStore.Proofs.Files.History
/-!
# Writers below one directory

Writers change collections below one directory while somebody else looks at it.  They do not disturb
one another (`Writing`): each of them holds the lock of his collection for all that he does, or
there is only one, who then asks the storage for one operation after another without a lock.  Either
way what lies below the directory has a history (`Writing.history`).
-/

set_option autoImplicit false

namespace DocStore

open Disk (Branch Place Shows)
open Files (Named)
open Host (Confined Machine Pool)

/-- A program that only looks obeys the protocol at every stage. -/
theorem Obeys.of_looks {setting : Setting} {root : Disk.Path} {name : String} {α : Type}
    {stage : Stage} {program : Program Host.interface α} (asks : program.Asks Host.Request.Looks) :
    Obeys setting root name (fun _ _ => True) stage program := by
  induction asks with
  | done result => exact .done trivial
  | @ask request next looks _ ih =>
      refine .quiet (fun machine => ?_) fun machine => ih _
      rw [looks.answer_snd]
      exact ⟨rfl, .refl machine⟩

namespace Database

/-! ## Storages without locks -/

/-- A request that asks the storage for an operation that fits. -/
def Request.Stores : Request .json → Prop
  | .store op => op.Fits
  | .lock _ | .unlock _ | .tell _ | .generate | .giveWay => False

/-- What asks the storage alone is confined to what lies below the root, and leaves it in order. -/
theorem Session.interpret_confined {session : Session} {setting : Setting} {store : FileStore}
    (joins : session.Joins setting store) {α : Type} {program : Program (interface .json) α}
    (asks : program.Asks Request.Stores) {cabinet : Cabinet} {view : Branch}
    (keeps : Keeps setting.layouts cabinet (fun _ => none) view) (inside : view.Inside Set.univ) :
    Confined (Advances setting.layouts) setting.origin setting.home (fun view _ =>
        (∃ cabinet, Keeps setting.layouts cabinet (fun _ => none) view) ∧ view.Inside Set.univ)
      Set.univ view (program.interpret session.meaning) := by
  induction asks generalizing cabinet view with
  | done result => exact .done ⟨⟨cabinet, keeps⟩, inside⟩
  | @ask request next fits _ ih =>
      cases request with
      | store op =>
          show Confined _ _ _ _ _ _
            (Program.bind (Session.store session.number op session.backend) _)
          rw [joins.isBackend]
          have secures := FileStore.serves joins.vacant keeps joins.usual joins.blank fits
            op.within_univ
          exact (secures inside).bind fun view' result ended inside' => ih result ended.2 inside'
      | lock _ | unlock _ | tell _ | generate | giveWay => exact fits.elim

/-! ## Writers -/

/-- Somebody who changes what a storage keeps. -/
structure Writer where
  session : Session
  store : FileStore
  collection : Caller.Value
  Result : Type
  action : Action Result

namespace Writer

/-- The name of the collection that a writer changes. -/
def name (writer : Writer) : String := (checkedName writer.collection).toOption.getD ""

/-- Do what a writer does; what comes of it is not told. -/
def program {α : Type} (writer : Writer) : Program Host.interface (Option α) :=
  (writer.session.run writer.action).toProgram.bind fun _ => .done none

/-- A writer uses a database that has been opened over a directory, and holds the lock of the
collection for all that he does. -/
structure Locked (writer : Writer) (home : Place) (machine : Machine) : Prop where
  opened : writer.session.Opened writer.store home machine
  locks : Locks writer.collection writer.action

/-- A writer uses a database that has been opened over a directory, and asks its storage for one
operation after another without a lock. -/
structure Unlocked (writer : Writer) (home : Place) (machine : Machine) : Prop where
  opened : writer.session.Opened writer.store home machine
  asks : writer.action.Asks Request.Stores

section

variable {writer : Writer} {home : Place} {machine : Machine} {α : Type}

theorem joins (opened : writer.session.Opened writer.store home machine) :
    writer.session.Joins (Job.setting home machine) writer.store :=
  ⟨opened.backend, opened.vacant, opened.blank, fun _ blank => blank⟩

theorem Locked.obeys (locked : writer.Locked home machine) :
    Obeys (Job.setting home machine) writer.store.root writer.name (fun _ _ => True) .outside
      (writer.program (α := α)) := by
  have obeys := Session.run_obeys (joins locked.opened) locked.locks (show ∀ other,
      checkedName writer.collection = .ok other → other = writer.name from fun other isName => by
    rw [name, isName]
    rfl)
  exact obeys.bind fun _ _ _ => .done trivial

theorem Unlocked.confined (unlocked : writer.Unlocked home machine) :
    Confined (Advances { layout | layout.Blank }) machine.disk home (fun _ _ => True) Set.univ
      (fun _ => none) (writer.program (α := α)) := by
  have usual : Json.Layout.line ∈ (Job.setting home machine).layouts := Json.Layout.Blank.line
  have inside : Branch.Inside (fun _ => none) Set.univ := fun _ _ => rfl
  exact (Session.interpret_confined (joins unlocked.opened) unlocked.asks (keeps_empty usual)
    inside).bind fun _ _ _ _ => .done trivial

end

end Writer

/-- Writers of whom none disturbs another: each holds the lock of his collection for all that he
does, or there is only one. -/
inductive Writing (home : Place) (machine : Machine) : List Writer → Prop
  | locked {writers : List Writer} (each : ∀ writer ∈ writers, writer.Locked home machine) :
      Writing home machine writers
  | alone {writer : Writer} (unlocked : writer.Unlocked home machine) :
      Writing home machine [writer]

namespace Writing

variable {home : Place} {machine : Machine} {writers : List Writer} {α : Type}
  {looking : Program Host.interface (Option α)} (looks : looking.Asks Host.Request.Looks)
  (shows : Shows machine.disk home (fun _ => none) machine.disk) {turns : Nat → Nat} {finish : Nat}
include looks shows

/-- Writers who hold locks leave a history, as long as fresh names do not start over. -/
theorem history_of_locked (each : ∀ writer ∈ writers, writer.Locked home machine)
    (few : (((Pool.start (looking :: writers.map Writer.program) machine).machineAt turns
      finish).names) ≤ Nat.pow 10 Machine.freshNameLength) :
    History { layout | layout.Blank } machine.disk home
      ((Pool.start (looking :: writers.map Writer.program) machine).machineAt turns) finish := by
  -- Who only looks has no collection of his own, so he is given a name that none can have.
  let rootAt (place : Nat) : Disk.Path :=
    ([] :: writers.map fun writer => writer.store.root)[place]?.getD []
  let nameAt (place : Nat) : String := ("" :: writers.map Writer.name)[place]?.getD ""
  have start : Shared (Job.setting home machine) rootAt nameAt (fun _ _ _ => True) machine.calls
      (.start (looking :: writers.map Writer.program) machine) (fun _ => .outside) Memory.empty
      (fun _ => none) (fun _ => none) [] := by
    have usual : Json.Layout.line ∈ (Job.setting home machine).layouts := Json.Layout.Blank.line
    refine .start shows rfl usual fun place program there => ?_
    cases place with
    | zero =>
        cases there
        exact .of_looks looks
    | succ place =>
        rw [List.getElem?_cons_succ, List.getElem?_map, Option.map_eq_some_iff] at there
        obtain ⟨writer, isWriter, rfl⟩ := there
        have isRoot : rootAt (place + 1) = writer.store.root := by simp [rootAt, isWriter]
        have isName : nameAt (place + 1) = writer.name := by simp [nameAt, isWriter]
        rw [isRoot, isName]
        exact (each writer (List.mem_of_getElem? isWriter)).obeys
  refine start.history (fun place named => ?_) few
  cases place with
  | zero => exact absurd rfl named.nonempty
  | succ place =>
      cases isWriter : writers[place]? with
      | none =>
          have noName : nameAt (place + 1) = "" := by simp [nameAt, isWriter]
          exact absurd noName named.nonempty
      | some writer =>
          have isRoot : rootAt (place + 1) = writer.store.root := by simp [rootAt, isWriter]
          rw [isRoot]
          exact (each writer (List.mem_of_getElem? isWriter)).opened.vacant

/-- A writer who is the only one leaves a history. -/
theorem history_of_unlocked {writer : Writer} (unlocked : writer.Unlocked home machine) :
    History { layout | layout.Blank } machine.disk home
      ((Pool.start [looking, writer.program] machine).machineAt turns) finish := by
  have lone : Lone { layout | layout.Blank } machine.disk home 1
      (Pool.start [looking, writer.program] machine) fun _ => none := by
    refine ⟨shows, fun program there => ?_, fun other program differ there => ?_⟩
    · rw [Pool.program?_start] at there
      cases there
      exact unlocked.confined
    · rw [Pool.program?_start] at there
      match other with
      | 0 =>
          cases there
          exact looks
      | 1 => exact absurd rfl differ
      | _ + 2 => cases there
  exact lone.history turns finish

/-- **What lies below the directory has a history** while writers of whom none disturbs another make
their steps, and so does somebody who only looks. -/
theorem history (writing : Writing home machine writers)
    (few : (((Pool.start (looking :: writers.map Writer.program) machine).machineAt turns
      finish).names) ≤ Nat.pow 10 Machine.freshNameLength) :
    History { layout | layout.Blank } machine.disk home
      ((Pool.start (looking :: writers.map Writer.program) machine).machineAt turns) finish := by
  cases writing with
  | locked each => exact history_of_locked looks shows each few
  | alone unlocked => exact history_of_unlocked looks shows unlocked

end Writing

end Database

end DocStore
