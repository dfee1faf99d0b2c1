import DocStore.Proofs.Disk.Unmade
import DocStore.Proofs.Files.Shared
import DocStore.Proofs.Host.Along
import Mathlib.Data.Set.BooleanAlgebra
import Mathlib.Order.CompletePartialOrder
/-!
# How far a program reaches

A program that obeys the protocol of lock files, while nobody else is about, changes what is at some
places and nothing else (`Reaches`): its own collection, the lock file of the collection, hidden
names of its own, and what it makes on its way there, the root and the directory of the lock files.
`Touches` finds every change of a run, request by request.

`Solo` is what holds at every moment of such a run.  `Solo.step` says that one request keeps it,
with one case for each rule of the protocol, and how far it reaches; `Solo.reaches` says so of every
request of a run, and `Solo.run` what holds at its end.  A run that begins before there is a root
makes the root when it first changes something (`Awaits`), and goes on as if the root had been
there.
-/

set_option autoImplicit false

namespace DocStore

open Disk (Branch Entry Path Place Shows Under Unmade Vacant below)
open Files (Named)
open Host (Machine marked)

/-- In a run of a program on a machine some request changes what is at a place. -/
inductive Host.Touches {α : Type} (place : Place) (before after : Option Entry) :
    Program Host.interface α → Machine → Prop
  | now {request : Host.Request} {next : request.Answer → Program Host.interface α}
      {machine : Machine} (isBefore : machine.disk.entry? place = before)
      (isAfter : (Machine.answer request machine).2.disk.entry? place = after)
      (changed : before ≠ after) : Touches place before after (.ask request next) machine
  | later {request : Host.Request} {next : request.Answer → Program Host.interface α}
      {machine : Machine} (goesOn : Touches place before after
        (next (Machine.answer request machine).1) (Machine.answer request machine).2) :
      Touches place before after (.ask request next) machine

open Host (Touches)

/-- What only looks changes nothing. -/
theorem Host.Touches.not_of_looks {α : Type} {program : Program Host.interface α}
    (asks : program.Asks Host.Request.Looks) {machine : Machine} {place : Place}
    {before after : Option Entry} : ¬ Touches place before after program machine := by
  intro touches
  induction touches with
  | now isBefore isAfter changed =>
      cases asks with
      | ask looks _ =>
          rw [looks.answer_snd, isBefore] at isAfter
          exact changed isAfter
  | later _ ih =>
      cases asks with
      | ask _ goesOn => exact ih (goesOn _)

/-! ## What may be changed -/

/-- The places that belong to the collection of a name: its directory with what is below it, and its
lock file. -/
def estate (home : Place) (name : String) : Set Place :=
  { place | (∃ rest, place = home ++ name :: rest) ∨ place = home ++ lockNames name }

/-- What belongs to collections of different names is disjoint. -/
theorem disjoint_estate (home : Place) {name other : String} (named : Named name)
    (named' : Named other) (differ : name ≠ other) :
    Disjoint (estate home name) (estate home other) := by
  refine Set.disjoint_left.mpr fun place inName inOther => ?_
  rcases inName with ⟨rest, rfl⟩ | rfl <;> rcases inOther with ⟨rest', same⟩ | same <;>
    have same := List.append_cancel_left same
  · exact differ (List.cons.inj same).1
  · exact named.ne_lockDirectory (List.cons.inj same).1
  · exact named'.ne_lockDirectory (List.cons.inj same).1.symm
  · exact differ ((String.append_left_inj ".lock").mp (List.cons.inj (List.cons.inj same).2).1)

/-- What a program that works on the collection of a name may change when it begins at a machine:
what belongs to the collection, hidden names marked with a fresh name, under which nothing has been,
and what it makes on its way, which are the directory of the lock files and the root with what leads
there. -/
inductive Reaches (home : Place) (name : String) (start : Machine) :
    Place → Option Entry → Option Entry → Prop
  | own {place : Place} (own : place ∈ estate home name) (before after : Option Entry) :
      Reaches home name start place before after
  | hidden {head : String} {number : Nat} (later : start.names ≤ number)
      (isMarked : head ∈ marked number)
      (fresh : ∀ rest, start.disk.entry? (home ++ head :: rest) = none)
      (rest : List String) (before after : Option Entry) :
      Reaches home name start (home ++ head :: rest) before after
  | locks (identity : Nat) :
      Reaches home name start (home ++ [lockDirectory]) none (some (.directory identity))
  | root {place : Place} (leads : below place home = true) (identity : Nat) :
      Reaches home name start place none (some (.directory identity))

/-! ## Who works alone -/

/-- The stages when one program alone is about. -/
def onlyStage (stage : Stage) : Nat → Stage := Function.update (fun _ => .outside) 0 stage

/-- A machine at which no hidden names are in use, and one to which fresh names have led from it. -/
structure Begun (home : Place) (start machine : Machine) : Prop where
  later : start.names ≤ machine.names
  fresh : ∀ head number, head ∈ marked number → ∀ rest,
    start.disk.entry? (home ++ head :: rest) = none

theorem Begun.answer {home : Place} {start machine : Machine} (begun : Begun home start machine)
    (request : Host.Request) : Begun home start (Machine.answer request machine).2 where
  later := Nat.le_trans begun.later (Machine.names_le_answer request machine)
  fresh := begun.fresh

/-- A program that has begun at a machine works alone below a root, at a stage. -/
structure Solo (setting : Setting) (name : String) (start : Machine) (stage : Stage) (branch : Branch)
    (machine : Machine) : Prop where
  generator : machine.generator = setting.generator
  named : stage ≠ .outside → Named name
  begun : Begun setting.home start machine
  lands : ∃ kept, Lands setting (fun _ => name) (Function.update (fun _ => none) 0 stage.land?) kept
    machine.names branch machine.disk
  marks : ∀ land, stage.land? = some land → ∀ head ∈ land.heads,
    head = name ∨ ∃ number, start.names ≤ number ∧ head ∈ marked number
  files : ∃ view, LockFiles setting (fun _ => name) (onlyStage stage) view branch machine.disk

namespace Solo

variable {setting : Setting} {root : Path} {name : String} {stage : Stage}
  {branch : Branch} {start machine : Machine} {α : Type} {ends : Stage → α → Prop}

theorem onlyStage_zero (stage : Stage) : onlyStage stage 0 = stage := Function.update_self ..

theorem update_onlyStage (stage stage' : Stage) :
    Function.update (onlyStage stage) 0 stage' = onlyStage stage' := Function.update_idem ..

theorem onlyStage_outside : onlyStage .outside = fun _ => .outside := Function.update_eq_self 0 _

/-- Where nobody is who owns something nothing is owned. -/
theorem update_landless (landless : stage.land? = none) :
    Function.update (fun _ => none) 0 stage.land? = fun _ : Nat => none :=
  Function.update_eq_self_iff.mpr landless

/-- Who alone is at a stage is the only program there. -/
theorem eq_zero_of_holding {place : Nat} {tenure : Tenure}
    (isHolding : onlyStage stage place = .holding tenure) : place = 0 ∧ stage = .holding tenure := by
  by_cases isFirst : place = 0
  · subst isFirst
    exact ⟨rfl, (onlyStage_zero stage).symm.trans isHolding⟩
  · rw [onlyStage, Function.update_of_ne isFirst] at isHolding
    cases isHolding

/-- The holder of a lock goes on as its holder. -/
theorem files_holding {tenure tenure' : Tenure} {view : Branch} {disk : Disk}
    (files : LockFiles setting (fun _ => name) (onlyStage (.holding tenure)) view branch disk)
    (same : tenure'.handle = tenure.handle) :
    LockFiles setting (fun _ => name) (onlyStage (.holding tenure')) view branch disk := by
  have isHolding := onlyStage_zero (.holding tenure)
  rw [← update_onlyStage (.holding tenure)]
  refine files.goesOn (isHolding.symm ▸ nofun) (fun _ isOther => ?_) fun _ _ => ⟨tenure', rfl⟩
  cases isOther
  exact ⟨tenure, isHolding, same.symm⟩

/-- Among the lock files a program that is alone touches its own. -/
theorem reaches_lock {stage' : Stage} {view view' branch branch' : Branch} {disk disk' : Disk}
    (files : LockFiles setting (fun _ => name) (onlyStage stage) view branch disk)
    (files' : LockFiles setting (fun _ => name) (onlyStage stage') view' branch' disk')
    (unmoved : ∀ names, ¬ Under {lockDirectory} names → branch' names = branch names)
    (stays : branch [lockDirectory] ≠ none → branch' [lockDirectory] = branch [lockDirectory])
    {names : List String} (changed : branch' names ≠ branch names) :
    Reaches setting.home name start (setting.home ++ names) (branch names) (branch' names) := by
  have under : Under {lockDirectory} names := by_contra fun notOwn => changed (unmoved names notOwn)
  cases names with
  | nil => exact under.elim
  | cons head rest =>
      obtain rfl := Set.mem_singleton_iff.mp under
      have same := files.sees.same (lockDirectory :: rest) under
      have same' := files'.sees.same (lockDirectory :: rest) under
      by_cases isTop : rest = []
      · subst isTop
        have missing : branch [lockDirectory] = none := by_contra fun there => changed (stays there)
        rcases files'.directory with nothing | ⟨identity, isDirectory⟩
        · exact absurd ((same'.trans nothing).trans missing.symm) changed
        · rw [missing, same', isDirectory]
          exact .locks identity
      · by_cases isFile : rest = [name ++ ".lock"]
        · subst isFile
          exact .own (.inr rfl) _ _
        · have nothing : view (lockDirectory :: rest) = none := by
            by_contra there
            obtain ⟨_, _, _, isFile'⟩ := files.only rest isTop there
            exact isFile isFile'
          have nothing' : view' (lockDirectory :: rest) = none := by
            by_contra there
            obtain ⟨_, _, _, isFile'⟩ := files'.only rest isTop there
            exact isFile isFile'
          exact absurd (by rw [same, same', nothing, nothing']) changed

theorem shows (solo : Solo setting name start stage branch machine) :
    Shows setting.origin setting.home branch machine.disk := by
  obtain ⟨_, files⟩ := solo.files
  exact files.sees.shows

/-- Below an empty root a program begins alone. -/
theorem of_empty (shows : Shows setting.origin setting.home (fun _ => none) machine.disk)
    (generator : machine.generator = setting.generator) {layout : Json.Layout}
    (usual : layout ∈ setting.layouts) (begun : Begun setting.home start machine) (name : String) :
    Solo setting name start .outside (fun _ => none) machine where
  generator := generator
  named arrived := absurd rfl arrived
  begun := begun
  lands := ⟨Memory.empty, by
    rw [update_landless rfl]
    exact .start shows usual⟩
  marks _ := nofun
  files := ⟨fun _ => none, by
    rw [onlyStage_outside]
    exact .start shows⟩

/-- What a request that a program asks at a stage comes to when nobody else is about. -/
def Steps (setting : Setting) (root : Path) (name : String) (start : Machine)
    (ends : Stage → α → Prop) (branch : Branch) (program : Program Host.interface α)
    (machine : Machine) : Prop :=
  ∃ stage branch', Solo setting name start stage branch' machine
    ∧ Obeys setting root name ends stage program
    ∧ ∀ names, branch' names ≠ branch names →
      Reaches setting.home name start (setting.home ++ names) (branch names) (branch' names)

section

variable (solo : Solo setting name start stage branch machine)
include solo

/-- A change of one's own land is a change of what one may change. -/
theorem reaches_land (land : Land) (isLand : stage.land? = some land) {branch' : Branch}
    (unmoved : ∀ names, ¬ Under land.heads names → branch' names = branch names)
    {names : List String} (changed : branch' names ≠ branch names) :
    Reaches setting.home name start (setting.home ++ names) (branch names) (branch' names) := by
  have under : Under land.heads names := by_contra fun notOwn => changed (unmoved names notOwn)
  cases names with
  | nil => exact under.elim
  | cons head rest =>
      rcases solo.marks land isLand head under with rfl | ⟨number, later, isMarked⟩
      · exact .own (.inl ⟨rest, rfl⟩) _ _
      · exact .hidden later isMarked (solo.begun.fresh head number isMarked) rest _ _

/-- A request that changes nothing. -/
theorem quiet {request : Host.Request} {next : request.Answer → Program Host.interface α}
    (isQuiet : request.Quiet)
    (goesOn : ∀ machine,
      Obeys setting root name ends stage (next (Machine.answer request machine).1)) :
    Steps setting root name start ends branch (next (Machine.answer request machine).1)
      (Machine.answer request machine).2 := by
  have begun := solo.begun.answer request
  obtain ⟨generator, named, _, ⟨kept, lands⟩, marks, ⟨view, files⟩⟩ := solo
  obtain ⟨sameDisk, same⟩ := isQuiet machine
  have lands := lands.more (Machine.names_le_answer request machine)
  exact ⟨stage, branch, ⟨same.generator.trans generator, named, begun, ⟨kept, sameDisk ▸ lands⟩, marks,
    ⟨view, sameDisk ▸ files⟩⟩, goesOn machine, fun _ changed => absurd rfl changed⟩

end

/-- The program comes for its lock. -/
theorem comes (solo : Solo setting name start .outside branch machine)
    (vacant : Vacant setting.origin root setting.home)
    {next : Except Disk.Errno (Option Disk.Obstacle) → Program Host.interface α} (isNamed : Named name)
    (goesOn : Obeys setting root name ends (.waiting false) (next (.ok none))) :
    Steps setting root name start ends branch
      (next (Machine.answer (.disk (.makeDirectories (root.trimmed ++ [lockDirectory]))) machine).1)
      (Machine.answer (.disk (.makeDirectories (root.trimmed ++ [lockDirectory]))) machine).2 := by
  have begun := solo.begun.answer (.disk (.makeDirectories (root.trimmed ++ [lockDirectory])))
  obtain ⟨generator, _, _, ⟨kept, lands⟩, _, ⟨view, files⟩⟩ := solo
  obtain ⟨view', branch', answers, files', unmoved, stays⟩ :=
    files.comes vacant (onlyStage_zero .outside)
  rw [update_onlyStage] at files'
  exact ⟨.waiting false, branch', ⟨generator, fun _ => isNamed, begun,
    ⟨kept, lands.beside files'.sees unmoved⟩, fun _ => nofun, ⟨view', files'⟩⟩, answers ▸ goesOn,
    fun _ => reaches_lock files files' unmoved stays⟩

/-- Nobody else holds the lock that the program asks for. -/
theorem opens {refused : Bool} (solo : Solo setting name start (.waiting refused) branch machine)
    (vacant : Vacant setting.origin root setting.home)
    {next : Except Disk.Errno Nat → Program Host.interface α}
    (obtained : ∀ (cabinet : Cabinet) (view : Branch) (handle : Nat),
      Keeps setting.layouts cabinet (fun _ => none) view → view.Inside {name} →
      Obeys setting root name ends (.holding ⟨⟨{name}, view⟩, cabinet, [], handle⟩)
        (next (.ok handle))) :
    Steps setting root name start ends branch
      (next (Machine.answer (.disk (.openNew (root.trimmed ++ lockNames name))) machine).1)
      (Machine.answer (.disk (.openNew (root.trimmed ++ lockNames name))) machine).2 := by
  have begun := solo.begun.answer (.disk (.openNew (root.trimmed ++ lockNames name)))
  obtain ⟨generator, named, _, ⟨kept, lands⟩, _, ⟨view, files⟩⟩ := solo
  have isNamed := named nofun
  have isArrived : onlyStage (.waiting refused) 0 ≠ .outside := by
    rw [onlyStage_zero]
    exact nofun
  have nobody (other : Nat) (tenure : Tenure)
      (isHolding : onlyStage (.waiting refused) other = .holding tenure) : name ≠ name :=
    nomatch (eq_zero_of_holding isHolding).2
  have nothing (other : Nat) (land : Land)
      (isLand : Function.update (fun _ => none) 0 (Stage.waiting refused).land? other = some land) :
      name ≠ name := by
    rw [update_landless rfl] at isLand
    cases isLand
  obtain ⟨cabinet, view', keeps, inside, _, lands'⟩ :=
    lands.takes (Function.update_self ..) isNamed nothing
  obtain ⟨lockView, branch', disk', opens, files', unmoved, stays⟩ := files.opens vacant isNamed
    isArrived nobody (show Tenure.handle ⟨⟨{name}, view'⟩, cabinet, [], _⟩ = _ from rfl)
  rw [update_onlyStage] at files'
  rw [Function.update_idem] at lands'
  rw [Machine.answer_openNew_ok opens] at begun ⊢
  refine ⟨.holding ⟨⟨{name}, view'⟩, cabinet, [], machine.disk.nextIdentity⟩, branch',
    ⟨generator, fun _ => isNamed, begun, ⟨kept, lands'.beside files'.sees unmoved⟩,
      fun land isLand head isHead => ?_, ⟨lockView, files'⟩⟩,
    obtained cabinet view' _ keeps inside, fun _ => reaches_lock files files' unmoved fun _ => stays⟩
  cases isLand
  exact .inl isHead

/-- Who alone holds a lock owns its land. -/
theorem update_land (tenure : Tenure) :
    Function.update (fun _ => none) 0 (Stage.holding tenure).land? 0 = some tenure.toLand :=
  Function.update_self ..

section

variable {tenure : Tenure} (solo : Solo setting name start (.holding tenure) branch machine)
include solo

/-- The record is written into the lock file of the holder. -/
theorem signs (vacant : Vacant setting.origin root setting.home) {content : String}
    {next : Except Disk.Errno Unit → Program Host.interface α}
    (goesOn : Obeys setting root name ends (.holding tenure) (next (.ok ()))) :
    Steps setting root name start ends branch
      (next (Machine.answer (.disk (.write tenure.handle content)) machine).1)
      (Machine.answer (.disk (.write tenure.handle content)) machine).2 := by
  have begun := solo.begun.answer (.disk (.write tenure.handle content))
  obtain ⟨generator, named, _, ⟨kept, lands⟩, marks, ⟨view, files⟩⟩ := solo
  obtain ⟨view', branch', files', unmoved, stays⟩ := files.signs vacant (onlyStage_zero _) content
  exact ⟨_, branch', ⟨generator, named, begun, ⟨kept, lands.beside files'.sees unmoved⟩, marks,
    ⟨view', files'⟩⟩, goesOn, fun _ => reaches_lock files files' unmoved fun _ => stays⟩

/-- The holder draws an identifier. -/
theorem generates {next : Identifier.Generated → Program Host.interface α}
    (goesOn : ∀ number, Obeys setting root name ends
      (.holding { tenure with drawn := tenure.drawn ++ [number] }) (next (setting.generator number))) :
    Steps setting root name start ends branch (next (Machine.answer .generate machine).1)
      (Machine.answer .generate machine).2 := by
  have begun := solo.begun.answer .generate
  obtain ⟨generator, named, _, ⟨kept, lands⟩, marks, ⟨view, files⟩⟩ := solo
  have goes := goesOn machine.calls
  rw [← generator] at goes
  exact ⟨.holding { tenure with drawn := tenure.drawn ++ [machine.calls] }, branch,
    ⟨generator, fun _ => named nofun, begun, ⟨kept, lands⟩, marks, ⟨view, files_holding files rfl⟩⟩,
    goes, fun _ changed => absurd rfl changed⟩

/-- The holder claims the hidden names that are marked with a fresh name. -/
theorem freshName {next : String → Program Host.interface α}
    (goesOn : ∀ number, Obeys setting root name ends
      (.holding { tenure with heads := tenure.heads ∪ marked number })
      (next (Machine.freshName number))) :
    Steps setting root name start ends branch (next (Machine.answer .freshName machine).1)
      (Machine.answer .freshName machine).2 := by
  have begun := solo.begun.answer .freshName
  have later := solo.begun.later
  obtain ⟨generator, named, _, ⟨kept, lands⟩, marks, ⟨view, files⟩⟩ := solo
  have claims := lands.claims_apart (update_land tenure) fun other land differ isLand => by
    rw [Function.update_of_ne differ] at isLand
    cases isLand
  rw [Function.update_idem] at claims
  refine ⟨.holding { tenure with heads := tenure.heads ∪ marked machine.names }, branch,
    ⟨generator, fun _ => named nofun, begun, ⟨kept, claims⟩, fun land isLand head isHead => ?_,
      ⟨view, files_holding files rfl⟩⟩,
    goesOn machine.names, fun _ changed => absurd rfl changed⟩
  cases isLand
  exact isHead.elim (marks _ rfl head) fun isMarked => .inr ⟨machine.names, later, isMarked⟩

/-- The holder changes what is in its land. -/
theorem acts {request : Host.Request} {next : request.Answer → Program Host.interface α}
    (after : Machine → Branch → Branch)
    (same : ∀ machine, Machine.Same machine (Machine.answer request machine).2)
    (becomes : ∀ machine branch,
      Disk.Sees setting.origin setting.home tenure.heads tenure.view branch machine.disk →
      Disk.Becomes setting.origin setting.home tenure.heads branch (after machine branch)
        (Machine.answer request machine).2.disk)
    (goesOn : ∀ machine branch,
      Disk.Sees setting.origin setting.home tenure.heads tenure.view branch machine.disk →
      Obeys setting root name ends (.holding { tenure with view := after machine branch })
        (next (Machine.answer request machine).1)) :
    Steps setting root name start ends branch (next (Machine.answer request machine).1)
      (Machine.answer request machine).2 := by
  have reaches := solo.reaches_land
  have begun := solo.begun.answer request
  obtain ⟨generator, named, _, ⟨kept, lands⟩, marks, ⟨view, files⟩⟩ := solo
  have owns := lands.owns 0 tenure.toLand (update_land tenure)
  obtain ⟨branch', sees, unmoved⟩ := becomes machine branch owns.sees
  have acts := (lands.acts (update_land tenure) sees unmoved).more
    (Machine.names_le_answer request machine)
  rw [Function.update_idem] at acts
  have files' := files.beside sees unmoved fun inside => owns.ne_lockDirectory inside rfl
  refine ⟨.holding { tenure with view := after machine branch }, branch',
    ⟨(same machine).generator.trans generator, fun _ => named nofun, begun, ⟨kept, acts⟩,
      fun land isLand head isHead => ?_, ⟨view, files_holding files' rfl⟩⟩,
    goesOn machine branch owns.sees, fun _ => reaches _ rfl unmoved⟩
  cases isLand
  exact marks _ rfl head isHead

/-- The holder gives its lock back. -/
theorem unlinks (vacant : Vacant setting.origin root setting.home) {cabinet : Cabinet}
    {next : Except Disk.Errno Unit → Program Host.interface α}
    (keeps : Keeps setting.layouts cabinet (fun _ => none) tenure.view)
    (inside : tenure.view.Inside {name})
    (goesOn : Obeys setting root name ends (.past tenure.before tenure.drawn cabinet)
      (next (.ok ()))) :
    Steps setting root name start ends branch
      (next (Machine.answer (.disk (.unlink (root.trimmed ++ lockNames name))) machine).1)
      (Machine.answer (.disk (.unlink (root.trimmed ++ lockNames name))) machine).2 := by
  have begun := solo.begun.answer (.disk (.unlink (root.trimmed ++ lockNames name)))
  obtain ⟨generator, named, _, ⟨kept, lands⟩, _, ⟨view, files⟩⟩ := solo
  have isNamed := named nofun
  have releases := lands.releases (update_land tenure) keeps inside
  rw [Function.update_idem] at releases
  obtain ⟨lockView, branch', disk', removes, files', unmoved, stays⟩ := files.unlinks vacant
    (onlyStage_zero _) isNamed (fun _ _ isHolding _ => (eq_zero_of_holding isHolding).1)
    (show ∀ other, Stage.past tenure.before tenure.drawn cabinet ≠ .holding other from nofun)
  rw [update_onlyStage] at files'
  rw [Machine.answer_unlink_ok removes] at begun ⊢
  exact ⟨.past tenure.before tenure.drawn cabinet, branch',
    ⟨generator, fun _ => isNamed, begun, ⟨_, releases.beside files'.sees unmoved⟩, fun _ => nofun,
      ⟨lockView, files'⟩⟩, goesOn, fun _ => reaches_lock files files' unmoved fun _ => stays⟩

end

variable (solo : Solo setting name start stage branch machine)
include solo

/-- **One request** of a program that is alone. -/
theorem step (vacant : Vacant setting.origin root setting.home) {request : Host.Request}
    {next : request.Answer → Program Host.interface α}
    (obeys : Obeys setting root name ends stage (.ask request next)) :
    Steps setting root name start ends branch (next (Machine.answer request machine).1)
      (Machine.answer request machine).2 := by
  cases obeys with
  | quiet isQuiet goesOn => exact solo.quiet isQuiet goesOn
  | comes named goesOn => exact solo.comes vacant named goesOn
  | opens _ obtained => exact solo.opens vacant obtained
  | signs goesOn => exact solo.signs vacant goesOn
  | generates goesOn => exact solo.generates goesOn
  | freshName goesOn => exact solo.freshName goesOn
  | acts after same becomes _ goesOn => exact solo.acts after same becomes goesOn
  | unlinks keeps inside goesOn => exact solo.unlinks vacant keeps inside goesOn

/-- Once no lock is held anybody may begin. -/
theorem rest (unheld : ∀ tenure, stage ≠ .holding tenure) (name : String) :
    Solo setting name machine .outside branch machine := by
  obtain ⟨generator, _, _, ⟨kept, lands⟩, _, ⟨view, files⟩⟩ := solo
  have nobody (place : Nat) (tenure : Tenure) : onlyStage stage place ≠ .holding tenure :=
    fun isHolding => unheld tenure (eq_zero_of_holding isHolding).2
  have landless : stage.land? = none := by
    cases stage with
    | holding tenure => exact absurd rfl (unheld tenure)
    | outside | waiting | past => rfl
  rw [update_landless landless] at lands
  refine ⟨generator, fun arrived => absurd rfl arrived, ⟨Nat.le_refl _, fun head number isMarked rest =>
    ?_⟩, ⟨kept, ?_⟩, fun _ => nofun, ⟨view, ?_⟩⟩
  · -- While no lock is held there are no hidden names.
    have noLock := ne_lockDirectory_of_mem_marked isMarked
    rw [files.sees.shows.shows _ (List.cons_ne_nil head rest)]
    exact (lands.free head noLock fun _ _ => nofun).nothing noLock (isHidden_of_mem_marked isMarked)
      rest
  · rw [update_landless rfl]
    exact { lands with owns := fun _ _ => nofun, apart := fun _ _ _ _ => nofun }
  · rw [onlyStage_outside]
    refine ⟨files.sees, files.directory, fun _ arrived => absurd rfl arrived, fun _ _ => nofun,
      fun rest nonempty there => ?_⟩
    obtain ⟨place, tenure, isHolding, _⟩ := files.only rest nonempty there
    exact absurd isHolding (nobody place tenure)

end Solo

/-! ## Before there is a root -/

/-- A machine on which the root is yet to be made; once it is made, the disk is the one on which
programs begin. -/
structure Awaits (setting : Setting) (root : Path) (machine : Machine) : Prop where
  generator : machine.generator = setting.generator
  unmade : Unmade machine.disk root setting.home
  vacant : Vacant setting.origin root setting.home
  made : ∀ place, setting.origin.entry? place ≠ machine.disk.entry? place →
    below place setting.home = true ∧ machine.disk.entry? place = none
      ∧ ∃ identity, setting.origin.entry? place = some (.directory identity)
  makes : machine.disk.makeDirectories (root.trimmed ++ [lockDirectory])
    = setting.origin.makeDirectories (root.trimmed ++ [lockDirectory])

namespace Awaits

variable {setting : Setting} {root : Path} {name : String} {machine : Machine} {α : Type}
  {ends : Stage → α → Prop} (awaits : Awaits setting root machine) {layout : Json.Layout}
  (usual : layout ∈ setting.layouts)
include awaits

/-- Nothing is below a root that is yet to be made. -/
theorem nothing (names : List String) (nonempty : names ≠ []) :
    machine.disk.entry? (setting.home ++ names) = none := by
  by_contra there
  have differs : setting.origin.entry? (setting.home ++ names)
      ≠ machine.disk.entry? (setting.home ++ names) := by
    rw [awaits.vacant.empty names nonempty]
    exact Ne.symm there
  exact there (awaits.made _ differs).2.1

/-- What changes nothing leaves the root to be made. -/
theorem quiet {request : Host.Request} (isQuiet : request.Quiet) :
    Awaits setting root (Machine.answer request machine).2 := by
  obtain ⟨sameDisk, same⟩ := isQuiet machine
  refine ⟨same.generator.trans awaits.generator, ?_, awaits.vacant, ?_, ?_⟩
  · exact sameDisk ▸ awaits.unmade
  · exact sameDisk ▸ awaits.made
  · exact sameDisk ▸ awaits.makes

/-- Who asks for the directory of the lock files makes the root on the way. -/
theorem answer_comes :
    Machine.answer (.disk (.makeDirectories (root.trimmed ++ [lockDirectory]))) machine
      = Machine.answer (.disk (.makeDirectories (root.trimmed ++ [lockDirectory])))
        { machine with disk := setting.origin } := by
  have makes := awaits.makes
  rw [Machine.answer, Machine.answer, Disk.answer, Disk.answer, makes]

include usual

/-- Where the root has been made a program begins alone. -/
theorem solo (name : String) {start : Machine} (begun : Begun setting.home start machine) :
    Solo setting name start .outside (fun _ => none) { machine with disk := setting.origin } := by
  refine .of_empty ?_ ?_ usual ?_ name
  · exact awaits.vacant.shows
  · exact awaits.generator
  · exact ⟨begun.later, begun.fresh⟩

end Awaits

/-! ## Runs -/

/-- A program that has begun at a machine works alone, whether or not the root has been made. -/
inductive Works (setting : Setting) (root : Path) (name : String) (start : Machine) :
    Stage → Machine → Prop
  | solo {stage : Stage} {branch : Branch} {machine : Machine}
      (solo : Solo setting name start stage branch machine) :
      Works setting root name start stage machine
  | awaits {machine : Machine} (begun : Begun setting.home start machine)
      (awaits : Awaits setting root machine) :
      Works setting root name start .outside machine

namespace Works

variable {setting : Setting} {root : Path} {name : String} {start : Machine} {stage : Stage}
  {machine : Machine} {α : Type} {ends : Stage → α → Prop}
  (vacant : Vacant setting.origin root setting.home) {layout : Json.Layout}
  (usual : layout ∈ setting.layouts) (works : Works setting root name start stage machine)
include vacant usual works

/-- **One request**, wherever it changes something. -/
theorem step {request : Host.Request} {next : request.Answer → Program Host.interface α}
    (obeys : Obeys setting root name ends stage (.ask request next)) :
    ∃ stage', Works setting root name start stage' (Machine.answer request machine).2
      ∧ Obeys setting root name ends stage' (next (Machine.answer request machine).1)
      ∧ ∀ place, machine.disk.entry? place ≠ (Machine.answer request machine).2.disk.entry? place →
        Reaches setting.home name start place (machine.disk.entry? place)
          ((Machine.answer request machine).2.disk.entry? place) := by
  have goes {branch : Branch} {machine : Machine} {stage : Stage}
      (solo : Solo setting name start stage branch machine)
      (obeys : Obeys setting root name ends stage (.ask request next)) :
      ∃ stage' branch', Solo setting name start stage' branch' (Machine.answer request machine).2
        ∧ Obeys setting root name ends stage' (next (Machine.answer request machine).1)
        ∧ ∀ place,
          machine.disk.entry? place ≠ (Machine.answer request machine).2.disk.entry? place →
          Reaches setting.home name start place (machine.disk.entry? place)
            ((Machine.answer request machine).2.disk.entry? place) := by
    obtain ⟨stage', branch', solo', obeys', reaches⟩ := solo.step vacant obeys
    refine ⟨stage', branch', solo', obeys', fun place differs => ?_⟩
    obtain ⟨names, isPlace, isBranch, isBranch'⟩ := solo.shows.exists_names solo'.shows differs
    rw [isBranch, isBranch'] at differs ⊢
    exact isPlace ▸ reaches names (Ne.symm differs)
  cases works with
  | solo solo =>
      obtain ⟨stage', _, solo', obeys', reaches⟩ := goes solo obeys
      exact ⟨stage', .solo solo', obeys', reaches⟩
  | awaits begun awaits =>
      cases obeys with
      | quiet isQuiet goesOn =>
          refine ⟨.outside, .awaits (begun.answer request) (awaits.quiet isQuiet), goesOn machine,
            fun place differs => ?_⟩
          rw [(isQuiet machine).1] at differs
          exact absurd rfl differs
      | comes named goesOn =>
          have solo := awaits.solo usual name begun
          obtain ⟨stage', branch', solo', obeys', reaches⟩ := goes solo (.comes named goesOn)
          rw [← awaits.answer_comes] at solo' obeys' reaches
          refine ⟨stage', .solo solo', obeys', fun place differs => ?_⟩
          by_cases same : setting.origin.entry? place = machine.disk.entry? place
          · rw [← same] at differs ⊢
            exact reaches place differs
          · obtain ⟨leads, missing, identity, made⟩ := awaits.made place same
            have stays : (Machine.answer (.disk (.makeDirectories (root.trimmed ++ [lockDirectory])))
                machine).2.disk.entry? place = setting.origin.entry? place := by
              by_contra changed
              obtain ⟨names, _, nothing, _⟩ :=
                solo.shows.exists_names solo'.shows (Ne.symm changed)
              rw [show setting.origin.entry? place = none from nothing] at made
              cases made
            rw [missing, stays, made]
            exact .root leads identity

/-- **How far a run reaches.** -/
theorem reaches {program : Program Host.interface α}
    (obeys : Obeys setting root name ends stage program) {place : Place} {before after : Option Entry}
    (touches : Touches place before after program machine) :
    Reaches setting.home name start place before after := by
  induction touches generalizing stage with
  | now isBefore isAfter changed =>
      obtain ⟨_, _, _, reaches⟩ := works.step vacant usual obeys
      subst isBefore isAfter
      exact reaches place changed
  | later _ ih =>
      obtain ⟨stage', works', obeys', _⟩ := works.step vacant usual obeys
      exact ih works' obeys'

/-- **What holds at the end of a run.** -/
theorem run {program : Program Host.interface α}
    (obeys : Obeys setting root name ends stage program) :
    ∃ stage', Works setting root name start stage' (machine.run program).2
      ∧ ends stage' (machine.run program).1 := by
  induction program generalizing stage machine with
  | done result =>
      cases obeys with
      | done holds => exact ⟨stage, works, holds⟩
  | ask request next ih =>
      obtain ⟨stage', works', obeys', _⟩ := works.step vacant usual obeys
      exact ih _ works' obeys'

omit vacant usual works in
/-- A program begins below a root that is empty, or is yet to be made. -/
theorem exists_begin (home : Place) (machine : Machine)
    (empty : Vacant machine.disk root home ∨ Unmade machine.disk root home)
    {layouts : Set Json.Layout} (usual : layout ∈ layouts) :
    ∃ origin, Vacant origin root home ∧ ∀ name, Works ⟨origin, home, layouts, machine.generator⟩ root
      name machine .outside machine := by
  rcases empty with vacant | unmade
  · exact ⟨machine.disk, vacant, fun name => .solo (.of_empty vacant.shows rfl usual
      ⟨Nat.le_refl _, fun head _ _ rest => vacant.empty _ (List.cons_ne_nil head rest)⟩ name)⟩
  · obtain ⟨origin, _, vacant, made, makes⟩ := unmade.exists_vacant
    have awaits : Awaits ⟨origin, home, layouts, machine.generator⟩ root machine :=
      ⟨rfl, unmade, vacant, made, makes lockDirectory (by decide)⟩
    exact ⟨origin, vacant, fun name => .awaits ⟨Nat.le_refl _, fun head _ _ rest =>
      awaits.nothing _ (List.cons_ne_nil head rest)⟩ awaits⟩

omit vacant usual in
/-- Once no lock is held anybody may begin. -/
theorem rest (unheld : ∀ tenure, stage ≠ .holding tenure) (name : String) :
    Works setting root name machine .outside machine := by
  cases works with
  | solo solo => exact .solo (solo.rest unheld name)
  | awaits _ awaits =>
      refine .awaits ⟨Nat.le_refl _, fun head number _ rest => ?_⟩ awaits
      exact awaits.nothing _ (List.cons_ne_nil head rest)

end Works

end DocStore
