import DocStore.Proofs.Database.Alone
import DocStore.Proofs.Files.Protocol
/-!
# Operations obey the protocol

An operation that may change a collection takes its lock, works on it alone and gives the lock back,
whatever others do meanwhile (`run_obeys`).  So what it does is settled by what is kept
in the collection when it gets the lock and by what the identifier generator then gives it: it is
what the operation does to a cabinet (`ComesTo`).  An operation that does not get the lock fails and
changes nothing (`Session.Ended`).
-/

set_option autoImplicit false

namespace DocStore.Database

open Disk (Branch Vacant)
open Files (Named)
open Host (Machine)

/-! ## Calls of the identifier generator -/

/-- A generator gives, from one of its calls on, what another one gives at some calls. -/
def Gives (generator given : Nat → Identifier.Generated) : List Nat → Nat → Prop
  | [], _ => True
  | number :: drawn, calls =>
      given calls = generator number ∧ Gives generator given drawn (calls + 1)

theorem gives_append {generator given : Nat → Identifier.Generated} {first second : List Nat}
    {calls : Nat} : Gives generator given (first ++ second) calls
      ↔ Gives generator given first calls
        ∧ Gives generator given second (calls + first.length) := by
  induction first generalizing calls with
  | nil => simp [Gives]
  | cons number first ih =>
      rw [List.cons_append, Gives, Gives, ih, and_assoc, List.length_cons, Nat.add_assoc,
        Nat.add_comm 1]

/-- What a program does to a cabinet when the identifier generator gives it what it gives at some
calls, neither more nor less. -/
def ComesTo {α : Type} (generator : Nat → Identifier.Generated) (store : FileStore)
    (program : Program (interface .json) α) (before : Cabinet) (drawn : List Nat) (result : α)
    (after : Cabinet) : Prop :=
  ∀ given calls, Gives generator given drawn calls →
    program.run (answerOfCabinet store given) (before, calls)
      = (result, (after, calls + drawn.length))

namespace Session

variable {α : Type}

/-- A session works below a root that programs have in common. -/
structure Joins (session : Session) (setting : Setting) (store : FileStore) : Prop where
  isBackend : session.backend = .files store
  vacant : Vacant setting.origin store.root setting.home
  usual : store.layout ∈ setting.layouts
  blank : ∀ layout ∈ setting.layouts, layout.Blank

/-- How an operation that may change a collection ends. -/
inductive Ended (setting : Setting) (store : FileStore) (name : String) (action : Action α) :
    Stage → Except Failure α → Prop
  /-- Its arguments are refused. -/
  | unfit {failure : Failure} (refuses : action = Attempt.ofExcept (.error failure)) :
      Ended setting store name action .outside (.error failure)
  /-- It has not obtained the lock. -/
  | refused {failure : Failure} (refusal : (store.lockOf name).Refusal failure) :
      Ended setting store name action (.waiting true) (.error failure)
  /-- It has done what it does to a cabinet. -/
  | past {before after : Cabinet} {drawn : List Nat} {result : Except Failure α}
      (comes : ComesTo setting.generator store action.toProgram before drawn result after) :
      Ended setting store name action (.past before drawn after) result

section

variable {setting : Setting} {store : FileStore} {session : Session}
  (joins : session.Joins setting store) {name : String}
include joins

/-! ## The lock of a collection -/

theorem lock_obeys (named : Named name) :
    Obeys setting store.root name (fun stage taken => ∃ acquired,
        FileLock.Acquired setting (store.lockOf name) name stage acquired
          ∧ taken = acquired.map fun handle => (⟨name, some handle⟩ : Hold .json))
      .outside (session.lock (show Content.json.Key from name)) := by
  have isPath : (store.lockOf name).path = store.root.trimmed ++ lockNames name :=
    FileStore.lockPath_eq joins.vacant.resolved named
  have isParent : (store.lockOf name).path.parent = store.root.trimmed ++ [lockDirectory] := by
    have split : store.root.trimmed ++ lockNames name
        = store.root.trimmed ++ [lockDirectory] ++ [name ++ ".lock"] := by simp [lockNames]
    rw [isPath, split]
    exact Disk.Path.parent_concat (by simp) named.plain_lock.nonempty
  refine .quiet (fun _ => ⟨rfl, rfl, rfl, rfl⟩) fun _ => ?_
  have takes : Obeys setting store.root name (fun stage taken => ∃ acquired,
        FileLock.Acquired setting (store.lockOf name) name stage acquired
          ∧ taken = acquired.map fun handle => (⟨name, some handle⟩ : Hold .json))
      .outside (takeFile (show Content.json.Key from name) session.backend) := by
    rw [joins.isBackend]
    exact (FileLock.acquire_obeys isPath isParent named).bind fun stage acquired ended =>
      .done ⟨acquired, ended, rfl⟩
  refine takes.bind fun stage taken ended => ?_
  obtain ⟨acquired, ended, rfl⟩ := ended
  cases ended with
  | obtained keeps inside => exact .done ⟨_, .obtained keeps inside, rfl⟩
  | refused refusal =>
      exact .quiet (fun _ => ⟨rfl, rfl, rfl, rfl⟩) fun _ => .done ⟨_, .refused refusal, rfl⟩

theorem unlock_obeys (named : Named name) {tenure : Tenure} {cabinet : Cabinet}
    (keeps : Keeps setting.layouts cabinet (fun _ => none) tenure.view)
    (inside : tenure.view.Inside {name}) (handle : Nat) :
    Obeys setting store.root name (fun stage result =>
        stage = .past tenure.before tenure.drawn cabinet ∧ result = .ok ())
      (.holding tenure) (session.unlock (⟨name, some handle⟩ : Hold .json)) := by
  have gives : Obeys setting store.root name (fun stage result =>
        stage = .past tenure.before tenure.drawn cabinet ∧ result = .ok ())
      (.holding tenure) (giveFile (⟨name, some handle⟩ : Hold .json) session.backend) := by
    rw [joins.isBackend]
    exact FileLock.release_obeys (FileStore.lockPath_eq joins.vacant.resolved named) keeps inside
      handle
  refine gives.bind fun stage result ended => ?_
  exact .quiet (fun _ => ⟨rfl, rfl, rfl, rfl⟩) fun _ =>
    .quiet (fun _ => ⟨rfl, rfl, rfl, rfl⟩) fun _ =>
      .quiet (fun _ => ⟨rfl, rfl, rfl, rfl⟩) fun _ => .done ended

/-! ## What is done while the lock is held -/

omit joins in
theorem tell_obeys (notice : Notice .json) {stage : Stage} :
    Obeys setting store.root name (fun reached result => reached = stage ∧ result = .ok ()) stage
      (session.tell notice).toProgram := by
  unfold Session.tell
  split
  · exact .log _ _
  · exact .done ⟨rfl, rfl⟩

/-- **What asks for one collection alone** does what it does to a cabinet, while the lock is
held. -/
theorem interpret_obeys {program : Program (interface .json) α}
    (asks : program.Asks (Request.Fits {name})) (tenure : Tenure) {cabinet : Cabinet}
    (keeps : Keeps setting.layouts cabinet (fun _ => none) tenure.view)
    (inside : tenure.view.Inside {name}) (own : name ∈ tenure.heads) :
    Obeys setting store.root name (fun stage result => ∃ heads view drawn cabinet',
        stage = .holding { tenure with heads, view, drawn := tenure.drawn ++ drawn }
          ∧ Keeps setting.layouts cabinet' (fun _ => none) view ∧ view.Inside {name}
          ∧ ComesTo setting.generator store program cabinet drawn result cabinet')
      (.holding tenure) (program.interpret session.meaning) := by
  induction asks generalizing tenure cabinet with
  | done result =>
      refine .done ⟨tenure.heads, tenure.view, [], cabinet, ?_, keeps, inside, fun _ _ _ => rfl⟩
      rw [List.append_nil]
  | @ask request next isAllowed _ ih =>
      cases request with
      | store op =>
          show Obeys _ _ _ _ _ (Program.bind (Session.store session.number op session.backend) _)
          rw [joins.isBackend]
          have secures := FileStore.serves joins.vacant keeps joins.usual joins.blank isAllowed.1
            isAllowed.2
          have confined := (secures inside).more inside (Set.singleton_subset_iff.mpr own)
          refine (confined.obeys tenure).bind fun stage result ended => ?_
          obtain ⟨heads, view, more, rfl, ⟨rfl, keeps'⟩, inside'⟩ := ended
          refine (ih _ { tenure with heads, view } keeps' inside' (more own)).mono
            fun stage result ended => ?_
          obtain ⟨heads', view', drawn, cabinet', isStage, keeps'', inside'', comes⟩ := ended
          exact ⟨heads', view', drawn, cabinet', isStage, keeps'', inside'', comes⟩
      | tell notice =>
          refine (tell_obeys notice).bind fun stage result ended => ?_
          obtain ⟨rfl, rfl⟩ := ended
          exact ih _ tenure keeps inside own
      | generate =>
          refine .generates fun number => ?_
          refine (ih _ { tenure with drawn := tenure.drawn ++ [number] } keeps inside own).mono
            fun stage result ended => ?_
          obtain ⟨heads', view', drawn, cabinet', isStage, keeps', inside', comes⟩ := ended
          refine ⟨heads', view', number :: drawn, cabinet', ?_, keeps', inside', ?_⟩
          · rw [isStage, List.append_assoc]
            rfl
          · intro given calls gives
            have goes := comes given (calls + 1) gives.2
            rw [← gives.1, Nat.add_assoc, Nat.add_comm 1] at goes
            exact goes
      | giveWay =>
          exact .quiet (fun _ => ⟨rfl, rfl, rfl, rfl⟩) fun _ => ih _ tenure keeps inside own
      | lock _ | unlock _ => exact isAllowed.elim

/-! ## Operations -/

/-- **An operation that may change a collection obeys the protocol.** -/
theorem run_obeys {collection : Caller.Value} {action : Action α} (locks : Locks collection action)
    (isName : ∀ other, checkedName collection = .ok other → other = name) :
    Obeys setting store.root name (Ended setting store name action) .outside
      (session.run action).toProgram := by
  cases locks with
  | refused failure => exact .done (.unfit rfl)
  | @holding name' body isName' asks =>
      obtain rfl := isName name' isName'
      have named := named_of_checkedName isName'
      show Obeys _ _ _ _ _ ((session.lock (show Content.json.Key from name')).bind _)
      refine (lock_obeys joins named).bind fun stage taken ended => ?_
      obtain ⟨acquired, ended, rfl⟩ := ended
      cases ended with
      | refused refusal => exact .done (.refused refusal)
      | @obtained cabinet view handle keeps inside =>
          show Obeys _ _ _ _ _ (Program.interpret session.meaning (body.toProgram.bind _))
          rw [Program.interpret_bind]
          refine (interpret_obeys joins asks ⟨⟨{name'}, view⟩, cabinet, [], handle⟩ keeps inside
            (Set.mem_singleton name')).bind fun stage result ended => ?_
          obtain ⟨heads, view', drawn, cabinet', rfl, keeps', inside', comes⟩ := ended
          show Obeys _ _ _ _ _ ((session.unlock (⟨name', some handle⟩ : Hold .json)).bind _)
          refine (unlock_obeys joins named keeps' inside' handle).bind fun stage given ended => ?_
          obtain ⟨rfl, rfl⟩ := ended
          refine .done (.past fun given calls gives => ?_)
          have goes := comes given calls gives
          exact (eval_holding _ _ name' body (cabinet, calls)).trans goes

end

end Session

end DocStore.Database
