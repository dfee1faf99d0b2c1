import DocStore.Proofs.Disk.Entries
import DocStore.Proofs.Files.LockFiles
import DocStore.Proofs.Files.Succession
import DocStore.Proofs.Host.Steps
/-!
# Programs that share a root

Programs that obey the protocol work below the same root, each on the collection of its name, and
make their steps in any order.  `Shared` is what holds at every moment: what lies below the root is
divided into lands, the lock files are those of the owners, and the owners have followed one
another. `Shared.step` says that one step keeps it, with one case for each rule of the protocol, and
`Shared.after` that any number of steps do.
-/

set_option autoImplicit false

namespace DocStore

open Disk (Branch Path Shows Under Vacant)
open Files (Named)
open Host (Machine Pool)

/-- What a program owns at a stage. -/
def Stage.land? : Stage → Option Land
  | .holding tenure => some tenure.toLand
  | _ => none

/-- Programs share a root, each at its stage; some of them have taken locks in an order. -/
structure Shared (setting : Setting) (root : Nat → Path) (name : Nat → String) {α : Type}
    (ends : Nat → Stage → α → Prop) (first : Nat) (pool : Pool α) (stages : Nat → Stage)
    (kept : Cabinet) (view branch : Branch) (taken : List Nat) : Prop where
  generator : pool.machine.generator = setting.generator
  obeys : ∀ place program, pool.program? place = some program →
    Obeys setting (root place) (name place) (ends place) (stages place) program
  named : ∀ place, stages place ≠ .outside → Named (name place)
  lands : Lands setting name (Stage.land? ∘ stages) kept pool.machine.names branch
    pool.machine.disk
  files : LockFiles setting name stages view branch pool.machine.disk
  roll : Roll name stages taken kept first pool.machine.calls

/-- Programs share a root, some of which have taken locks in an order. -/
def Sharing (setting : Setting) (root : Nat → Path) (name : Nat → String) {α : Type}
    (ends : Nat → Stage → α → Prop) (first : Nat) (pool : Pool α) (taken : List Nat) : Prop :=
  ∃ stages kept view branch,
    Shared setting root name ends first pool stages kept view branch taken

/-- Programs share a root after a step from a branch, before which so many identities had been
given.
-/
def Stepped (setting : Setting) (root : Nat → Path) (name : Nat → String) {α : Type}
    (ends : Nat → Stage → α → Prop) (first : Nat) (given : Nat) (branch : Branch) (pool : Pool α)
    (taken : List Nat) : Prop :=
  ∃ stages kept view branch',
    Shared setting root name ends first pool stages kept view branch' taken
      ∧ Advances setting.layouts given branch branch'

section

variable {setting : Setting} {root : Nat → Path} {name : Nat → String} {α : Type}
  {ends : Nat → Stage → α → Prop} {first given place : Nat} {branch : Branch} {pool : Pool α}
  {taken : List Nat} {created : Bool}

/-- A step that creates no lock file takes no lock. -/
theorem Stepped.of_not_creates (nothing : created = false)
    (stepped : Stepped setting root name ends first given branch pool taken) :
    Stepped setting root name ends first given branch pool
      (taken ++ if created then [place] else []) := by
  rwa [nothing, if_neg Bool.false_ne_true, List.append_nil]

/-- A step that creates a lock file takes the lock. -/
theorem Stepped.of_creates (isCreated : created = true)
    (stepped : Stepped setting root name ends first given branch pool (taken ++ [place])) :
    Stepped setting root name ends first given branch pool
      (taken ++ if created then [place] else []) := by
  rwa [isCreated, if_pos rfl]

end

/-- A pool has become one in which the program at a place has gone on with the answer to a request,
and the machine is the one that comes with it. -/
structure Continues {α : Type} (pool : Pool α) (place : Nat) {request : Host.Request}
    (next : request.Answer → Program Host.interface α) (answered : request.Answer × Machine)
    (pool' : Pool α) : Prop where
  machine : pool'.machine = answered.2
  programs : ∀ other, pool'.program? other
    = if other = place then some (next answered.1) else pool.program? other

namespace Shared

variable {setting : Setting} {root : Nat → Path} {name : Nat → String} {α : Type}
  {ends : Nat → Stage → α → Prop} {first : Nat} {pool : Pool α} {stages : Nat → Stage}
  {kept : Cabinet} {view branch : Branch} {taken : List Nat}

/-- Programs that have not started. -/
theorem start {programs : List (Program Host.interface α)} {machine : Machine}
    (shows : Shows setting.origin setting.home (fun _ => none) machine.disk)
    (generator : machine.generator = setting.generator) {layout : Json.Layout}
    (usual : layout ∈ setting.layouts)
    (obeys : ∀ place program, programs[place]? = some program →
      Obeys setting (root place) (name place) (ends place) .outside program) :
    Shared setting root name ends machine.calls (.start programs machine) (fun _ => .outside)
      Memory.empty (fun _ => none) (fun _ => none) [] where
  generator := generator
  obeys place program there := obeys place program (Pool.program?_start programs machine place ▸ there)
  named _ arrived := absurd rfl arrived
  lands := .start shows usual
  files := .start shows
  roll := .start name machine.calls

section

variable {request : Host.Request} {machine : Machine} {path : Path}

/-- A request that changes nothing creates no file. -/
theorem not_creates_of_quiet (isQuiet : request.Quiet) : request.creates path machine = false := by
  unfold Host.Request.creates
  split
  next asked =>
    have same : (machine.disk.opening (machine.disk.openNew asked)).2 = machine.disk :=
      (isQuiet machine).1
    cases opens : machine.disk.openNew asked with
    | error errno => exact decide_eq_false fun created => Bool.false_ne_true created.2
    | ok opened =>
        obtain ⟨handle, disk'⟩ := opened
        rw [opens] at same
        have grown := Disk.nextIdentity_openNew opens
        rw [show disk' = machine.disk from same] at grown
        exact absurd grown (Nat.ne_of_lt (Nat.lt_succ_self _))
  next => rfl

end

/-- What a program owns at a stage at which it owns the same as before. -/
theorem update_land? {place : Nat} {land : Option Land} (same : land = (stages place).land?) :
    Function.update (Stage.land? ∘ stages) place land = Stage.land? ∘ stages :=
  Function.update_eq_self_iff.mpr same

variable (shared : Shared setting root name ends first pool stages kept view branch taken)
include shared

section

variable {pool' : Pool α} {place : Nat} {request : Host.Request}
  {next : request.Answer → Program Host.interface α} {answer : request.Answer} {machine : Machine}
  (continues : Continues pool place next (answer, machine) pool')
  (generator : machine.generator = pool.machine.generator)
include continues generator

/-- A program goes on at another stage, and the others stay where they are. -/
theorem goesOn {stage : Stage} {kept' : Cabinet} {view' branch' : Branch} {taken' : List Nat}
    {given : Nat} (advances : Advances setting.layouts given branch branch')
    (obeys : Obeys setting (root place) (name place) (ends place) stage (next answer))
    (named : stage ≠ .outside → Named (name place))
    (lands : Lands setting name (Function.update (Stage.land? ∘ stages) place stage.land?) kept'
      machine.names branch' machine.disk)
    (files : LockFiles setting name (Function.update stages place stage) view' branch' machine.disk)
    (roll : Roll name (Function.update stages place stage) taken' kept' first machine.calls) :
    Stepped setting root name ends first given branch pool' taken' := by
  obtain ⟨rfl, programs⟩ := continues
  refine ⟨_, kept', view', branch', ⟨generator.trans shared.generator,
    fun other program' there => ?_, fun other arrived => ?_,
    Function.comp_update Stage.land? stages place stage ▸ lands, files, roll⟩, advances⟩
  · rw [programs] at there
    split at there
    next same =>
      cases there
      rw [same, Function.update_self]
      exact obeys
    next differ =>
      rw [Function.update_of_ne differ]
      exact shared.obeys other program' there
  · rw [Function.update_apply] at arrived
    split at arrived
    next same => exact same ▸ named arrived
    next => exact shared.named other arrived

/-- A program that owns nothing goes on without taking anything. -/
theorem waits {stage : Stage} {view' branch' : Branch} {given : Nat}
    (advances : Advances setting.layouts given branch branch')
    (landless : (stages place).land? = none) (landless' : stage.land? = none)
    (obeys : Obeys setting (root place) (name place) (ends place) stage (next answer))
    (named : stage ≠ .outside → Named (name place))
    (lands : Lands setting name (Stage.land? ∘ stages) kept machine.names branch' machine.disk)
    (files : LockFiles setting name (Function.update stages place stage) view' branch' machine.disk)
    (roll : Roll name (Function.update stages place stage) taken kept first machine.calls) :
    Stepped setting root name ends first given branch pool' taken :=
  shared.goesOn continues generator advances obeys named
    ((update_land? (landless'.trans landless.symm)).symm ▸ lands) files roll

/-- The holder of a lock goes on as its holder. -/
theorem holds {tenure tenure' : Tenure} {view' branch' : Branch} {given : Nat}
    (advances : Advances setting.layouts given branch branch')
    (isHolding : stages place = .holding tenure)
    (obeys : Obeys setting (root place) (name place) (ends place) (.holding tenure') (next answer))
    (same : tenure'.handle = tenure.handle ∧ tenure'.before = tenure.before)
    (lands : Lands setting name (Function.update (Stage.land? ∘ stages) place (some tenure'.toLand))
      kept machine.names branch' machine.disk)
    (files : LockFiles setting name stages view' branch' machine.disk)
    (later : pool.machine.calls ≤ machine.calls)
    (rises : ∀ low, Rises tenure.drawn low pool.machine.calls →
      Rises tenure'.drawn low machine.calls) :
    Stepped setting root name ends first given branch pool' taken := by
  have arrived : stages place ≠ .outside := by simp [isHolding]
  refine shared.goesOn continues generator advances obeys (fun _ => shared.named place arrived) lands
    (files.goesOn arrived (fun other isOther => ?_) fun _ _ => ⟨tenure', rfl⟩)
    (shared.roll.draws isHolding later same.2 rises)
  cases isOther
  exact ⟨tenure, isHolding, same.1.symm⟩

/-- The holder of a lock goes on as its holder without touching its land. -/
theorem holds_land {tenure tenure' : Tenure} {view' branch' : Branch} {given : Nat}
    (advances : Advances setting.layouts given branch branch')
    (isHolding : stages place = .holding tenure)
    (obeys : Obeys setting (root place) (name place) (ends place) (.holding tenure') (next answer))
    (same : tenure'.handle = tenure.handle ∧ tenure'.before = tenure.before)
    (sameLand : tenure'.toLand = tenure.toLand)
    (lands : Lands setting name (Stage.land? ∘ stages) kept machine.names branch' machine.disk)
    (files : LockFiles setting name stages view' branch' machine.disk)
    (later : pool.machine.calls ≤ machine.calls)
    (rises : ∀ low, Rises tenure.drawn low pool.machine.calls →
      Rises tenure'.drawn low machine.calls) :
    Stepped setting root name ends first given branch pool' taken := by
  have unchanged : Function.update (Stage.land? ∘ stages) place (some tenure'.toLand)
      = Stage.land? ∘ stages :=
    update_land? (by rw [isHolding, sameLand]; rfl)
  exact shared.holds continues generator advances isHolding obeys same (unchanged.symm ▸ lands) files
    later rises

end

omit shared in
theorem land?_of_holding {place : Nat} {tenure : Tenure} (isHolding : stages place = .holding tenure) :
    (Stage.land? ∘ stages) place = some tenure.toLand := by
  rw [Function.comp_apply, isHolding]
  rfl

omit shared in
theorem exists_holding {place : Nat} {land : Land} (isLand : (Stage.land? ∘ stages) place = some land) :
    ∃ tenure, stages place = .holding tenure := by
  rw [Function.comp_apply] at isLand
  cases stage : stages place with
  | holding tenure => exact ⟨tenure, rfl⟩
  | outside | waiting | past =>
      rw [stage] at isLand
      cases isLand

/-- Who holds the lock of a collection is the only one. -/
theorem alone {place other : Nat} {tenure tenure' : Tenure}
    (isHolding : stages place = .holding tenure) (isHolding' : stages other = .holding tenure')
    (same : name other = name place) : other = place :=
  shared.lands.place_eq (land?_of_holding isHolding) (land?_of_holding isHolding') same

/-! ## What each rule of the protocol comes to -/

section

variable {place : Nat} {pool' : Pool α}

/-- A step in which no program asks anything. -/
theorem stays (machine : pool'.machine = pool.machine)
    (programs : ∀ other, pool'.program? other = pool.program? other) (given : Nat) :
    Stepped setting root name ends first given branch pool' taken :=
  ⟨stages, kept, view, branch, ⟨machine ▸ shared.generator,
    fun other program there => shared.obeys other program (programs other ▸ there), shared.named,
    machine ▸ shared.lands, machine ▸ shared.files, machine ▸ shared.roll⟩, .refl branch⟩

/-- A request that changes nothing. -/
theorem quiet {request : Host.Request} {next : request.Answer → Program Host.interface α}
    (continues : Continues pool place next (Machine.answer request pool.machine) pool')
    (isQuiet : request.Quiet)
    (goesOn : ∀ machine, Obeys setting (root place) (name place) (ends place) (stages place)
      (next (Machine.answer request machine).1)) :
    Stepped setting root name ends first pool.machine.disk.nextIdentity branch pool' taken := by
  obtain ⟨sameDisk, same⟩ := isQuiet pool.machine
  have names := Machine.names_le_answer request pool.machine
  have lands : Lands setting name (Stage.land? ∘ stages) kept
      (Machine.answer request pool.machine).2.names branch
      (Machine.answer request pool.machine).2.disk := sameDisk ▸ shared.lands.more names
  have whole : Function.update stages place (stages place) = stages :=
    Function.update_eq_self place stages
  exact shared.goesOn continues same.generator (.refl branch) (goesOn pool.machine)
    (shared.named place) ((update_land? rfl).symm ▸ lands) (whole.symm ▸ sameDisk ▸ shared.files)
    (whole.symm ▸ same.calls ▸ shared.roll)

/-- The holder of a lock changes what is in its land. -/
theorem acts {request : Host.Request} {next : request.Answer → Program Host.interface α}
    (continues : Continues pool place next (Machine.answer request pool.machine) pool')
    {tenure : Tenure} (isHolding : stages place = .holding tenure)
    {after : Branch} (same : Machine.Same pool.machine (Machine.answer request pool.machine).2)
    (becomes : Disk.Becomes setting.origin setting.home tenure.heads branch after
      (Machine.answer request pool.machine).2.disk)
    (advances : Advances setting.layouts pool.machine.disk.nextIdentity tenure.view after)
    (goesOn : Obeys setting (root place) (name place) (ends place)
      (.holding { tenure with view := after }) (next (Machine.answer request pool.machine).1)) :
    Stepped setting root name ends first pool.machine.disk.nextIdentity branch pool' taken := by
  have names := Machine.names_le_answer request pool.machine
  have owns := shared.lands.owns place tenure.toLand (land?_of_holding isHolding)
  obtain ⟨branch', sees, unmoved⟩ := becomes
  have lands := (shared.lands.acts (land?_of_holding isHolding) sees unmoved).more names
  have files := shared.files.beside sees unmoved fun inside => owns.ne_lockDirectory inside rfl
  exact shared.holds continues same.generator (advances.lift owns.sees sees unmoved) isHolding goesOn
    ⟨rfl, rfl⟩ lands files (Nat.le_of_eq same.calls.symm) fun _ rises => same.calls.symm ▸ rises

variable (vacant : ∀ place, Named (name place) → Vacant setting.origin (root place) setting.home)
include vacant

/-- A program comes for its lock. -/
theorem comes {next : Except Disk.Errno (Option Disk.Obstacle) → Program Host.interface α}
    (continues : Continues pool place next
      (Machine.answer (.disk (.makeDirectories ((root place).trimmed ++ [lockDirectory])))
        pool.machine) pool')
    (isOutside : stages place = .outside) (named : Named (name place))
    (goesOn : Obeys setting (root place) (name place) (ends place) (.waiting false)
      (next (.ok none))) :
    Stepped setting root name ends first pool.machine.disk.nextIdentity branch pool' taken := by
  obtain ⟨view', branch', answers, files, unmoved, _⟩ :=
    shared.files.comes (vacant place named) isOutside
  have outside : ¬ (stages place).Entered := isOutside ▸ not_false
  exact shared.waits continues rfl (.of_unmoved unmoved) (by rw [isOutside]; rfl) rfl
    (answers ▸ goesOn) (fun _ => named) (shared.lands.beside files.sees unmoved) files
    (shared.roll.waits outside not_false fun waits => by cases waits)

/-- Who asks for the lock of a collection that somebody holds is refused. -/
theorem refused {path : Path} {next : Except Disk.Errno Nat → Program Host.interface α}
    (continues : Continues pool place next
      (Machine.answer (.disk (.openNew ((root place).trimmed ++ lockNames (name place))))
        pool.machine) pool')
    {again : Bool} (isWaiting : stages place = .waiting again) {other : Nat} {tenure : Tenure}
    (isHolding : stages other = .holding tenure) (same : name other = name place)
    (refusal : Obeys setting (root place) (name place) (ends place) (.waiting true)
      (next (.error .exists))) :
    Host.Request.creates path pool.machine
        (.disk (.openNew ((root place).trimmed ++ lockNames (name place)))) = false
      ∧ Stepped setting root name ends first pool.machine.disk.nextIdentity branch pool' taken := by
  have arrived : stages place ≠ .outside := by simp [isWaiting]
  have named := shared.named place arrived
  have outside : ¬ (stages place).Entered := isWaiting ▸ not_false
  have refuses := shared.files.refuses (vacant place named) named arrived isHolding same
  rw [Machine.answer_openNew_error refuses] at continues
  constructor
  · refine decide_eq_false fun created => ?_
    rw [refuses] at created
    exact Bool.false_ne_true created.2
  · exact shared.waits continues rfl (.refl branch) (by rw [isWaiting]; rfl) rfl refusal
      (fun _ => named) shared.lands
      (shared.files.goesOn arrived (fun _ isOther => nomatch isOther)
        fun _ isOther => nomatch isWaiting.symm.trans isOther)
      (shared.roll.waits outside not_false fun _ => ⟨other, shared.roll.mem_taken isHolding, same⟩)

/-- The holder of a lock gives it back. -/
theorem unlinks {next : Except Disk.Errno Unit → Program Host.interface α}
    (continues : Continues pool place next
      (Machine.answer (.disk (.unlink ((root place).trimmed ++ lockNames (name place))))
        pool.machine) pool')
    {tenure : Tenure} (isHolding : stages place = .holding tenure) {cabinet : Cabinet}
    (keeps : Keeps setting.layouts cabinet (fun _ => none) tenure.view)
    (inside : tenure.view.Inside {name place})
    (goesOn : Obeys setting (root place) (name place) (ends place)
      (.past tenure.before tenure.drawn cabinet) (next (.ok ()))) :
    Stepped setting root name ends first pool.machine.disk.nextIdentity branch pool' taken := by
  have named := shared.named place (by simp [isHolding])
  have lands := shared.lands.releases (land?_of_holding isHolding) keeps inside
  obtain ⟨lockView, branch', disk', removes, files, unmoved, _⟩ := shared.files.unlinks
    (vacant place named) isHolding named
    (fun other tenure' isHolding' same => shared.alone isHolding isHolding' same)
    (show ∀ tenure', Stage.past tenure.before tenure.drawn cabinet ≠ .holding tenure' from
      fun _ isPast => nomatch isPast)
  rw [Machine.answer_unlink_ok removes] at continues
  exact shared.goesOn continues rfl (.of_unmoved unmoved) goesOn (fun _ => named)
    (lands.beside files.sees unmoved) files (shared.roll.releases isHolding cabinet)

variable {path : Nat → Path}
  (isPath : ∀ place, Named (name place) → path place = (root place).trimmed ++ lockNames (name place))
include isPath

/-- Who holds a lock does not create its file again. -/
theorem not_creates_of_holding {place : Nat} {tenure : Tenure}
    (isHolding : stages place = .holding tenure) (request : Host.Request) :
    request.creates (path place) pool.machine = false := by
  have arrived : stages place ≠ .outside := by simp [isHolding]
  have named := shared.named place arrived
  unfold Host.Request.creates
  split
  next asked =>
    refine decide_eq_false fun created => ?_
    have refused := shared.files.refuses (vacant place named) named arrived isHolding rfl
    rw [created.1, isPath place named, refused] at created
    exact Bool.false_ne_true created.2
  next => rfl

/-- Who asks for the lock of a collection that nobody holds obtains it. -/
theorem obtains {next : Except Disk.Errno Nat → Program Host.interface α}
    (continues : Continues pool place next
      (Machine.answer (.disk (.openNew ((root place).trimmed ++ lockNames (name place))))
        pool.machine) pool')
    {again : Bool} (isWaiting : stages place = .waiting again)
    (nobody : ∀ other tenure, stages other = .holding tenure → name other ≠ name place)
    (obtained : ∀ (cabinet : Cabinet) (view : Branch) (handle : Nat),
      Keeps setting.layouts cabinet (fun _ => none) view → view.Inside {name place} →
      Obeys setting (root place) (name place) (ends place)
        (.holding ⟨⟨{name place}, view⟩, cabinet, [], handle⟩) (next (.ok handle))) :
    Host.Request.creates (path place) pool.machine
        (.disk (.openNew ((root place).trimmed ++ lockNames (name place)))) = true
      ∧ Stepped setting root name ends first pool.machine.disk.nextIdentity branch pool'
        (taken ++ [place]) := by
  have arrived : stages place ≠ .outside := by simp [isWaiting]
  have named := shared.named place arrived
  have outside : ¬ (stages place).Entered := isWaiting ▸ not_false
  have others (other : Nat) (land : Land) (isLand : (Stage.land? ∘ stages) other = some land) :
      name other ≠ name place := by
    obtain ⟨tenure, isHolding⟩ := exists_holding isLand
    exact nobody other tenure isHolding
  obtain ⟨cabinet, view', keeps, inside, same, lands⟩ := shared.lands.takes
    (show (stages place).land? = none by rw [isWaiting]; rfl) named others
  obtain ⟨lockView, branch', disk', opens, files, unmoved, _⟩ := shared.files.opens
    (vacant place named) named arrived nobody
    (show Tenure.handle ⟨⟨{name place}, view'⟩, cabinet, [], _⟩ = _ from rfl)
  rw [Machine.answer_openNew_ok opens] at continues
  constructor
  · exact decide_eq_true ⟨(isPath place named).symm, by rw [opens]; rfl⟩
  · exact shared.goesOn continues rfl (.of_unmoved unmoved) (obtained cabinet view' _ keeps inside)
      (fun _ => named) (lands.beside files.sees unmoved) files
      (shared.roll.takes outside nobody rfl same)

/-- **One step** of programs that share a root. -/
theorem step {place : Nat}
    (few : (pool.step place).machine.names ≤ Nat.pow 10 Machine.freshNameLength) :
    Stepped setting root name ends first pool.machine.disk.nextIdentity branch (pool.step place)
      (taken ++ if pool.creates place (path place) then [place] else []) := by
  have moves := pool.step_moves place
  generalize pool.step place = pool' at moves few
  cases moves with
  | stays waits machine programs =>
      refine .of_not_creates ?_ (shared.stays machine programs _)
      unfold Pool.creates
      split
      next request next isNext =>
        obtain ⟨key, rfl⟩ := waits request next isNext
        rfl
      next => rfl
  | @asks request next isNext machine programs =>
      have continues : Continues pool place next _ pool' := ⟨machine, programs⟩
      have obeys := shared.obeys place _ isNext
      rw [machine] at few
      rw [Pool.creates, isNext]
      generalize isStage : stages place = stage at obeys
      cases obeys with
      | quiet isQuiet goesOn =>
          exact .of_not_creates (not_creates_of_quiet isQuiet)
            (shared.quiet continues isQuiet (isStage ▸ goesOn))
      | comes named goesOn =>
          exact .of_not_creates rfl (shared.comes vacant continues isStage named goesOn)
      | opens refusal obtained =>
          by_cases held : ∃ other tenure, stages other = .holding tenure ∧ name other = name place
          · obtain ⟨other, tenure, isHolding, same⟩ := held
            obtain ⟨nothing, stepped⟩ :=
              shared.refused vacant continues isStage isHolding same refusal
            exact .of_not_creates nothing stepped
          · obtain ⟨created, stepped⟩ := shared.obtains vacant isPath continues isStage
              (fun other tenure isHolding same => held ⟨other, tenure, isHolding, same⟩) obtained
            exact .of_creates created stepped
      | @signs tenure content next goesOn =>
          have named := shared.named place (by simp [isStage])
          obtain ⟨view', branch', files, unmoved, _⟩ :=
            shared.files.signs (vacant place named) isStage content
          exact .of_not_creates rfl (shared.holds_land continues rfl (.of_unmoved unmoved) isStage
            goesOn ⟨rfl, rfl⟩ rfl (shared.lands.beside files.sees unmoved) files (Nat.le_refl _)
            fun _ => id)
      | generates goesOn =>
          have goes := goesOn pool.machine.calls
          rw [← shared.generator] at goes
          exact .of_not_creates rfl (shared.holds_land continues rfl (.refl branch) isStage goes
            ⟨rfl, rfl⟩ rfl shared.lands shared.files (Nat.le_succ _) fun _ => Rises.concat)
      | freshName goesOn =>
          exact .of_not_creates rfl (shared.holds continues rfl (.refl branch) isStage
            (goesOn pool.machine.names) ⟨rfl, rfl⟩
            (shared.lands.claims (land?_of_holding isStage) few) shared.files (Nat.le_refl _)
            fun _ => id)
      | @acts tenure request next after same becomes advances goesOn =>
          have owns := shared.lands.owns place tenure.toLand (land?_of_holding isStage)
          exact .of_not_creates (shared.not_creates_of_holding vacant isPath isStage request)
            (shared.acts continues isStage (same pool.machine) (becomes _ _ owns.sees)
              (advances _ _ owns.sees) (goesOn _ _ owns.sees))
      | unlinks keeps inside goesOn =>
          exact .of_not_creates rfl (shared.unlinks vacant continues isStage keeps inside goesOn)

end

/-! ## When all programs have ended -/

section

variable {results : List α} (ended : pool.results? = some results)
include ended

/-- A program that has ended is at a stage at which it may end. -/
theorem ends_of_results {place : Nat} {result : α} (isResult : results[place]? = some result) :
    ends place (stages place) result := by
  have isDone : pool.program? place = some (.done result) := by
    rw [Pool.program?_of_results ended, isResult, Option.map_some]
  have obeys := shared.obeys place _ isDone
  generalize stages place = stage at obeys
  cases obeys with
  | done holds => exact holds

/-- No lock is held when no program ends while it holds its lock. -/
theorem nobody_holding (unheld : ∀ place tenure result, ¬ ends place (.holding tenure) result)
    (there : ∀ place, Named (name place) → (pool.program? place).isSome) (place : Nat)
    (tenure : Tenure) : stages place ≠ .holding tenure := by
  intro isHolding
  have isThere := there place (shared.named place (by simp [isHolding]))
  rw [Pool.program?_of_results ended, Option.isSome_map] at isThere
  obtain ⟨result, isResult⟩ := Option.isSome_iff_exists.mp isThere
  exact unheld place tenure result (isHolding ▸ shared.ends_of_results ended isResult)

end

end Shared

namespace Sharing

variable {setting : Setting} {root : Nat → Path} {name : Nat → String} {α : Type}
  {ends : Nat → Stage → α → Prop} {first : Nat} {pool : Pool α} {taken : List Nat}
  (sharing : Sharing setting root name ends first pool taken)
include sharing

/-- **Any steps** of programs that share a root, in any order, as long as fresh names do not start
over. -/
theorem after
    (vacant : ∀ place, Named (name place) → Vacant setting.origin (root place) setting.home)
    {path : Nat → Path} (isPath : ∀ place, Named (name place) →
      path place = (root place).trimmed ++ lockNames (name place)) {schedule : List Nat}
    (few : (pool.after schedule).machine.names ≤ Nat.pow 10 Machine.freshNameLength) :
    Sharing setting root name ends first (pool.after schedule)
      (taken ++ Pool.creators path pool schedule) := by
  induction schedule generalizing pool taken with
  | nil => exact (List.append_nil taken).symm ▸ sharing
  | cons place schedule ih =>
      obtain ⟨stages, kept, view, branch, shared⟩ := sharing
      obtain ⟨stages', kept', view', branch', shared', _⟩ := shared.step vacant isPath
        (Nat.le_trans (Pool.names_le_after (pool.step place) schedule) few)
      rw [Pool.creators, ← List.append_assoc]
      exact ih ⟨stages', kept', view', branch', shared'⟩ few

end Sharing

end DocStore
