import DocStore.Proofs.Database.Housed
import DocStore.Proofs.Files.Requests
import DocStore.Proofs.Files.Creating
import DocStore.Proofs.Host.Contest
import DocStore.Proofs.Host.Stages
/-!
# Creations that race

Several creations of one collection may run at the same time, without a lock.  Each looks whether
the collection is there, creates the root, prepares an empty collection under a hidden name of its
own, moves it to its place and removes what is left under the hidden name (`Creation`).  The move
finds nothing at its target or a whole collection, never a part of one, and it replaces only an
empty directory; so it succeeds for the first that comes to it and for nobody else.

`Racing` says what lies below the root while all creations have come to some stages: nothing has
changed but under the hidden names that are in use, and under the name of the collection there is
nothing, or what one of them has moved there.  Every request keeps it (`Racing.goes`).  So the
collection is absent or whole at every moment, no creation fails, and when all have ended one of
them has created it and nothing else is left (`creates_once`).
-/

set_option autoImplicit false

namespace DocStore

open Disk (Branch Entry Houses Path Place Plain Shows Unmade Vacant)
open Files (Named ensureDirectory)
open Host (Action AsksFirst Contest Machine Pool Proceeds Request ask)

/-! ## What lies under one name -/

namespace Disk.Branch

/-- What lies at and below one name. -/
def beneath (branch : Branch) (head : String) : Branch := fun rest => branch (head :: rest)

section

variable (branch : Branch) {head other : String}

theorem beneath_update_self (head : String) (rest : List String) (found : Option Entry) :
    beneath (Function.update branch (head :: rest) found) head
      = Function.update (branch.beneath head) rest found := by
  funext names
  simp [beneath, Function.update_apply]

theorem beneath_update_of_ne (differ : head ≠ other) (rest : List String) (found : Option Entry) :
    beneath (Function.update branch (other :: rest) found) head = branch.beneath head := by
  funext names
  simp [beneath, differ]

theorem beneath_without_self (head : String) :
    (branch.without [head]).beneath head = fun _ => none := by
  funext names
  rw [beneath, without_singleton, if_pos rfl]

theorem beneath_without_of_ne (differ : head ≠ other) :
    (branch.without [other]).beneath head = branch.beneath head := by
  funext names
  rw [beneath, without_singleton, if_neg differ, beneath]

theorem beneath_relocated_target (source target : String) :
    (branch.relocated [source] [target]).beneath target = branch.beneath source := by
  funext names
  rw [beneath, relocated_singleton, if_pos rfl, beneath]

theorem beneath_relocated_source {source target : String} (differ : source ≠ target) :
    (branch.relocated [source] [target]).beneath source = fun _ => none := by
  funext names
  rw [beneath, relocated_singleton, if_neg differ, if_pos rfl]

theorem beneath_relocated_of_ne {source target : String} (notSource : head ≠ source)
    (notTarget : head ≠ target) :
    (branch.relocated [source] [target]).beneath head = branch.beneath head := by
  funext names
  rw [beneath, relocated_singleton, if_neg notTarget, if_neg notSource, beneath]

end

end Disk.Branch

namespace FileStore

/-- A directory in which there is one for documents and nothing else. -/
def halfPrepared (first second : Nat) : Branch :=
  Function.update (Function.update (fun _ => none) [] (some (.directory first)))
    ["docs"] (some (.directory second))

/-- An empty collection. -/
def emptyCollection (identities : Nat × Nat × Nat) : Branch :=
  Function.update (halfPrepared identities.1 identities.2.1)
    ["constraints"] (some (.directory identities.2.2))

/-- A branch in which a collection has been created differs from what was there by an empty
collection. -/
theorem created_eq {view branch : Branch} {name : String} {identities : Nat × Nat × Nat}
    (top : branch [] = view []) (complete : branch.beneath name = emptyCollection identities)
    (elsewhere : ∀ head, head ≠ name → branch.beneath head = view.beneath head) :
    branch = created view name identities := by
  funext names
  cases names with
  | nil => rw [created, staged_nil, Branch.without_singleton_nil, top]
  | cons head rest =>
      by_cases isName : head = name
      · subst isName
        have made : (created view head identities).beneath head = emptyCollection identities := by
          rw [created, staged, Branch.beneath_update_self, Branch.beneath_update_self,
            Branch.beneath_update_self, Branch.beneath_without_self]
          rfl
        exact congrFun (complete.trans made.symm) rest
      · have same := congrFun (elsewhere head isName) rest
        rw [Branch.beneath, Branch.beneath] at same
        rw [same, created_of_ne isName]

/-! ## The stages of a creation -/

/-- How far the creation of a collection has come. -/
inductive Creation where
  /-- It looks whether the collection is there. -/
  | looks
  /-- It creates the root where that is missing. -/
  | ensures
  /-- It draws a fresh name. -/
  | draws
  /-- It creates the directory for documents under a hidden name. -/
  | prepares (staging : String)
  /-- It creates the directory for constraints. -/
  | furnishes (staging : String)
  /-- It moves what has been prepared to its place. -/
  | settles (staging : String)
  /-- It removes what is left under the hidden name; it knows what it tells. -/
  | sweeps (staging : String) (made : Bool)
  /-- It has told whether it has created the collection. -/
  | ended (made : Bool)

namespace Creation

/-- The hidden name that is in use. -/
def staging? : Creation → Option String
  | prepares staging | furnishes staging | settles staging | sweeps staging _ => some staging
  | _ => none

/-- What the creation tells, once that is known. -/
def made? : Creation → Option Bool
  | sweeps _ made | ended made => some made
  | _ => none

/-- What lies under the hidden name. -/
def Holds : Creation → Branch → Prop
  | furnishes _, tree => ∃ first second, tree = halfPrepared first second
  | settles _, tree | sweeps _ false, tree => ∃ identities, tree = emptyCollection identities
  | _, tree => tree = fun _ => none

/-- What is left of a creation. -/
def action (store : FileStore) (name : String) : Creation → Action Bool
  | looks => store.create name
  | ensures => do
      ensureDirectory store.root
      let staging := store.root.child (".staging-" ++ (← ask .freshName))
      (store.stage name staging).andFinally (sweep staging)
  | draws => do
      let staging := store.root.child (".staging-" ++ (← ask .freshName))
      (store.stage name staging).andFinally (sweep staging)
  | prepares staging =>
      (store.stage name (store.root.child staging)).andFinally (sweep (store.root.child staging))
  | furnishes staging =>
      (ensureDirectory ((store.root.child staging).child "constraints") >>= fun _ =>
        store.settle name (store.root.child staging)).andFinally (sweep (store.root.child staging))
  | settles staging =>
      (store.settle name (store.root.child staging)).andFinally (sweep (store.root.child staging))
  | sweeps staging made =>
      (pure made : Action Bool).andFinally (sweep (store.root.child staging))
  | ended made => pure made

/-- What is left of a creation, as a program. -/
def program (store : FileStore) (name : String) (stage : Creation) :
    Program Host.interface (Except Failure Bool) :=
  (stage.action store name).toProgram

section

variable {store : FileStore} {name : String} {machine : Machine}

theorem looks_there {identity : Nat}
    (isThere : machine.disk.status (store.documentsPath name) = .ok ⟨true, identity⟩) :
    Proceeds (program store name) looks machine (ended false) machine := by
  have asks : AsksFirst (looks.action store name) (.disk (.status (store.documentsPath name)))
      (.ok ⟨true, identity⟩) ((ended false).action store name) := ⟨_, rfl, rfl⟩
  exact asks.proceeds (by trivial) (by rw [Machine.answer, Disk.answer, isThere]; rfl)

theorem looks_absent (isAbsent : machine.disk.status (store.documentsPath name) = .error .noEntry) :
    Proceeds (program store name) looks machine ensures machine := by
  have asks : AsksFirst (looks.action store name) (.disk (.status (store.documentsPath name)))
      (.error .noEntry) (ensures.action store name) := ⟨_, rfl, rfl⟩
  exact asks.proceeds (by trivial) (by rw [Machine.answer, Disk.answer, isAbsent]; rfl)

theorem asksFirst_ensureDirectory {α : Type} {path : Path} (nonempty : path ≠ [])
    (next : Action α) :
    AsksFirst (ensureDirectory path >>= fun _ => next) (.disk (.makeDirectories path)) (.ok none)
      next := by
  rw [ensureDirectory, if_neg nonempty]
  exact .makeDirectories path _ _

theorem ensures_draws (nonempty : store.root ≠ []) {disk : Disk}
    (makes : machine.disk.makeDirectories store.root = (.ok none, disk)) :
    Proceeds (program store name) ensures machine draws { machine with disk } :=
  (asksFirst_ensureDirectory nonempty (draws.action store name)).proceeds
    (by trivial) (by rw [Machine.answer, Disk.answer, makes])

theorem draws_prepares :
    Proceeds (program store name) draws machine
      (prepares (".staging-" ++ Machine.freshName machine.names))
      { machine with names := machine.names + 1 } :=
  (AsksFirst.ask .freshName _ (Machine.freshName machine.names)).proceeds (by trivial) rfl

theorem prepares_furnishes {staging : String} {disk : Disk}
    (makes : machine.disk.makeDirectories ((store.root.child staging).child "docs")
      = (.ok none, disk)) :
    Proceeds (program store name) (prepares staging) machine (furnishes staging)
      { machine with disk } :=
  ((asksFirst_ensureDirectory (by simp [Path.child]) _).andFinally _).proceeds
    (by trivial) (by rw [Machine.answer, Disk.answer, makes])

theorem furnishes_settles {staging : String} {disk : Disk}
    (makes : machine.disk.makeDirectories ((store.root.child staging).child "constraints")
      = (.ok none, disk)) :
    Proceeds (program store name) (furnishes staging) machine (settles staging)
      { machine with disk } :=
  ((asksFirst_ensureDirectory (by simp [Path.child]) _).andFinally _).proceeds
    (by trivial) (by rw [Machine.answer, Disk.answer, makes])

theorem settles_sweeps {staging : String} {made : Bool} {disk : Disk}
    (moves : machine.disk.answer (.rename (store.root.child staging) (store.collectionPath name))
      = (if made then .ok () else .error .notEmpty, disk)) :
    Proceeds (program store name) (settles staging) machine (sweeps staging made)
      { machine with disk } := by
  have asks : AsksFirst ((settles staging).action store name)
      (.disk (.rename (store.root.child staging) (store.collectionPath name)))
      (if made then .ok () else .error .notEmpty) ((sweeps staging made).action store name) := by
    cases made <;> exact ⟨_, rfl, rfl⟩
  exact asks.proceeds (by trivial) (by rw [Machine.answer, moves])

theorem sweeps_ended {staging : String} {made : Bool} {disk : Disk}
    (removes : machine.disk.removeTree (store.root.child staging) = .ok disk) :
    Proceeds (program store name) (sweeps staging made) machine (ended made)
      { machine with disk } := by
  have asks : AsksFirst ((sweeps staging made).action store name)
      (.disk (.removeTree (store.root.child staging))) (.ok ())
      ((ended made).action store name) := ⟨_, rfl, rfl⟩
  exact asks.proceeds (by trivial) (by rw [Machine.answer, Disk.answer, removes]; rfl)

end

end Creation

/-! ## What lies below the root meanwhile -/

open Creation

/-- A hidden name is not the name of a collection. -/
theorem staging_ne {name : String} (named : Named name) (number : Nat) :
    ".staging-" ++ Machine.freshName number ≠ name := by
  rintro rfl
  have seen := named.seen
  rw [Files.mark_staging.isHidden number] at seen
  cases seen

/-- Creations contend for the name of the collection, under hidden names of their own. -/
def contest {name : String} (named : Named name) : Contest Creation Branch where
  prize := name
  fresh number := ".staging-" ++ Machine.freshName number
  own? := staging?
  holds := Holds
  won? := made?
  vacant tree := tree = fun _ => none
  taken _ tree := ∃ identities, tree = emptyCollection identities
  fresh_ne := staging_ne named
  fresh_inj few few' same := Files.freshName_inj few few' ((String.append_right_inj _).mp same)
  not_vacant := by
    rintro _ tree ⟨identities, rfl⟩ vacant
    have top := congrFun vacant []
    simp [emptyCollection, halfPrepared] at top

/-- All creations have come to some stages, over a root that is made or one that is yet to be. -/
inductive Racing (root : Path) (view : Branch) {name : String} (named : Named name) (first : Nat)
    (stages : Nat → Option Creation) (machine : Machine) : Prop
  | made {origin : Disk} {home : Place} {branch : Branch} (vacant : Vacant origin root home)
      (shows : Shows origin home branch machine.disk) (later : first ≤ machine.names)
      (spread : (contest named).Spread view.beneath first machine.names stages branch.beneath)
      (settled : (contest named).Settled stages branch.beneath)
  | unmade {home : Place} (unmade : Unmade machine.disk root home) (later : first ≤ machine.names)
      (empty : view = fun _ => none)
      (early : ∀ place stage, stages place = some stage → stage = .looks ∨ stage = .ensures)

/-- A creation at a stage goes on to another one, and all is as it has to be. -/
def Goes (store : FileStore) (view : Branch) {name : String} (named : Named name) (first : Nat)
    (stages : Nat → Option Creation) (machine : Machine) (place : Nat) (stage : Creation) : Prop :=
  ∃ stage' machine', Proceeds (program store name) stage machine stage' machine'
    ∧ (machine'.names ≤ Nat.pow 10 Machine.freshNameLength →
      Racing store.root view named first (Function.update stages place (some stage')) machine')

section

variable {store : FileStore} {view branch : Branch} {name : String} {first : Nat}
  {stages : Nat → Option Creation} {place : Nat} {stage : Creation} {machine : Machine}
  {origin : Disk} {home : Place} (named : Named name) (vacant : Vacant origin store.root home)
  (shows : Shows origin home branch machine.disk) (later : first ≤ machine.names)
  (spread : (contest named).Spread view.beneath first machine.names stages branch.beneath)
  (settled : (contest named).Settled stages branch.beneath)

/-- What a collection that has been created consists of. -/
theorem parts_of_taken {tree : Branch} (taken : (contest named).taken stage tree) :
    ∃ first second, tree [] = some (.directory first) ∧ tree ["docs"] = some (.directory second) := by
  obtain ⟨identities, rfl⟩ := taken
  exact ⟨identities.1, identities.2.1, by simp [emptyCollection, halfPrepared],
    by simp [emptyCollection, halfPrepared]⟩

include vacant shows later spread settled

theorem goes_looks (isStage : stages place = some .looks) :
    Goes store view named first stages machine place .looks := by
  have path := partPath_eq vacant.resolved named "docs"
  have plain := named.plain_documents
  cases settled with
  | nobody unknown absent =>
      have isAbsent : machine.disk.status (store.documentsPath name) = .error .noEntry := by
        rw [documentsPath, path]
        exact shows.status_absent vacant
          ⟨[], name, ["docs"], rfl, Branch.leads_nil branch, congrFun absent []⟩ plain
          (show 2 ≤ 3 by decide)
      refine ⟨_, _, looks_absent isAbsent, fun _ => .made vacant shows later ?_ ?_⟩
      · exact spread.idle isStage rfl rfl fun _ _ => rfl
      · exact (Contest.Settled.nobody unknown absent).same isStage rfl (fun _ => id) rfl
  | winner isWinner only taken =>
      obtain ⟨first', second, isTop, isDocuments⟩ := parts_of_taken named taken
      have isThere : machine.disk.status (store.documentsPath name) = .ok ⟨true, second⟩ := by
        rw [documentsPath, path]
        exact shows.status_directory vacant ((Branch.leads_nil branch).concat isTop) plain
          (show 1 < 3 by decide) isDocuments
      refine ⟨_, _, looks_there isThere, fun _ => .made vacant shows later ?_ ?_⟩
      · exact spread.idle isStage rfl rfl fun _ _ => rfl
      · exact (Contest.Settled.winner isWinner only taken).loses isStage rfl rfl
          ((contest named).not_vacant taken)

theorem goes_ensures (isStage : stages place = some .ensures) :
    Goes store view named first stages machine place .ensures := by
  refine ⟨_, _, ensures_draws vacant.resolved.nonempty (shows.makeDirectories_root vacant),
    fun _ => .made vacant shows later ?_ (settled.same isStage rfl (fun _ => id) rfl)⟩
  exact spread.idle isStage rfl rfl fun _ _ => rfl

theorem goes_draws (isStage : stages place = some .draws)
    (unused : ∀ number, first ≤ number → number < Nat.pow 10 Machine.freshNameLength →
      view.beneath (".staging-" ++ Machine.freshName number) = fun _ => none) :
    Goes store view named first stages machine place .draws := by
  refine ⟨_, _, draws_prepares, fun few => ?_⟩
  exact .made vacant shows (Nat.le_succ_of_le later)
    (spread.draws isStage rfl later few rfl (unused _ later few))
    (settled.same isStage rfl (fun _ => id) rfl)

section

variable {staging : String}

omit shows later settled vacant in
/-- The hidden name that is in use can be part of a path, and is not the name of the collection. -/
theorem staging_plain (isStage : stages place = some stage) (uses : stage.staging? = some staging) :
    Plain staging ∧ staging ≠ name := by
  have isOwn : (contest named).ownAt stages place = some staging :=
    (Contest.ownAt_of_isStage isStage).trans uses
  obtain ⟨number, _, _, isStaging⟩ := spread.drawn place staging isOwn
  exact ⟨isStaging ▸ Files.mark_staging.plain number, spread.own_ne isOwn⟩

/-- The directory for documents is created under a hidden name, with the one above it. -/
theorem goes_prepares (isStage : stages place = some (.prepares staging)) :
    Goes store view named first stages machine place (.prepares staging) := by
  obtain ⟨plainStaging, notName⟩ := staging_plain named spread isStage rfl
  have plain : ∀ other ∈ [] ++ [staging] ++ ["docs"], Plain other := by
    intro other member
    have parts : other = staging ∨ other = "docs" := by simpa using member
    rcases parts with rfl | rfl
    · exact plainStaging
    · exact isPart.stored (.inl rfl)
  have free : branch.beneath staging = fun _ => none := spread.holds place _ staging isStage rfl
  have makes := shows.makeDirectories_missing vacant (Branch.leads_nil branch) plain
    (show 1 < 3 by decide) (congrFun free []) (congrFun free ["docs"])
  have path : (store.root.child staging).child "docs"
      = store.root.trimmed ++ ([] ++ [staging] ++ ["docs"]) :=
    Path.child_concat _ plainStaging.nonempty "docs"
  have shows' : Shows origin home (Function.update (Function.update branch [staging]
      (some (.directory machine.disk.nextIdentity))) [staging, "docs"] _) _ :=
    (shows.addDirectory (List.cons_ne_nil staging [])).addDirectory
      (List.cons_ne_nil staging ["docs"])
  refine ⟨_, _, prepares_furnishes (path ▸ makes), fun _ => .made vacant shows' later ?_ ?_⟩
  · refine spread.same isStage rfl (fun own isOwn => ?_) fun head _ notOwn => ?_
    · cases isOwn
      refine ⟨machine.disk.nextIdentity, machine.disk.nextIdentity + 1, ?_⟩
      rw [Branch.beneath_update_self, Branch.beneath_update_self, free]
      rfl
    · have differ : head ≠ staging := fun same => notOwn (congrArg some same.symm)
      rw [Branch.beneath_update_of_ne _ differ, Branch.beneath_update_of_ne _ differ]
  · refine settled.same isStage rfl (fun _ => id) ?_
    exact (Branch.beneath_update_of_ne _ notName.symm ..).trans
      (Branch.beneath_update_of_ne _ notName.symm ..)

/-- The directory for constraints is created beside the one for documents. -/
theorem goes_furnishes (isStage : stages place = some (.furnishes staging)) :
    Goes store view named first stages machine place (.furnishes staging) := by
  obtain ⟨plainStaging, notName⟩ := staging_plain named spread isStage rfl
  have plain : ∀ other ∈ [staging] ++ ["constraints"], Plain other := by
    intro other member
    have parts : other = staging ∨ other = "constraints" := by simpa using member
    rcases parts with rfl | rfl
    · exact plainStaging
    · exact isPart.stored (.inr rfl)
  obtain ⟨first', second, half⟩ := spread.holds place _ staging isStage rfl
  have isTop : branch [staging] = some (.directory first') :=
    (congrFun half []).trans (by simp [halfPrepared])
  have free : branch ([staging] ++ ["constraints"]) = none :=
    (congrFun half ["constraints"]).trans (by simp [halfPrepared])
  have makes := shows.makeDirectories_free vacant ((Branch.leads_nil branch).concat isTop) plain
    (show 1 < 3 by decide) free
  have path : (store.root.child staging).child "constraints"
      = store.root.trimmed ++ ([staging] ++ ["constraints"]) :=
    Path.child_concat _ plainStaging.nonempty "constraints"
  have shows' : Shows origin home (Function.update branch [staging, "constraints"] _) _ :=
    shows.addDirectory (List.cons_ne_nil staging ["constraints"])
  refine ⟨_, _, furnishes_settles (path ▸ makes), fun _ => .made vacant shows' later ?_ ?_⟩
  · refine spread.same isStage rfl (fun own isOwn => ?_) fun head _ notOwn => ?_
    · cases isOwn
      refine ⟨(first', second, machine.disk.nextIdentity), ?_⟩
      rw [Branch.beneath_update_self, half]
      rfl
    · have differ : head ≠ staging := fun same => notOwn (congrArg some same.symm)
      exact Branch.beneath_update_of_ne _ differ ..
  · exact settled.same isStage rfl (fun _ => id) (Branch.beneath_update_of_ne _ notName.symm ..)

/-- What has been prepared takes its place where nothing is, and no other. -/
theorem goes_settles (isStage : stages place = some (.settles staging)) :
    Goes store view named first stages machine place (.settles staging) := by
  obtain ⟨plainStaging, notName⟩ := staging_plain named spread isStage rfl
  have plainOf {head : String} (plain : Plain head) : ∀ other ∈ [] ++ [head], Plain other := by
    simpa using plain
  obtain ⟨identities, prepared⟩ := spread.holds place _ staging isStage rfl
  have isTop : branch [staging] = some (.directory identities.1) :=
    (congrFun prepared []).trans (by simp [emptyCollection, halfPrepared])
  have located := shows.locateEntry vacant (Branch.leads_nil branch) (plainOf plainStaging)
    (show 0 < 3 by decide)
  rw [List.nil_append, isTop] at located
  have path := collectionPath_eq vacant.resolved named
  cases settled with
  | nobody unknown absent =>
      have renames := shows.rename_free vacant (Branch.leads_nil branch) (plainOf named.plain)
        (show 0 < 3 by decide) located (congrFun absent []) (apart notName) (apart notName.symm)
      have moves : machine.disk.answer
          (.rename (store.root.child staging) (store.collectionPath name))
            = (if true then .ok () else .error .notEmpty,
              machine.disk.relocate (home ++ [staging]) (home ++ [name])) := by
        rw [path]
        exact congrArg machine.disk.changing renames
      have shows' := shows.relocate (List.cons_ne_nil staging []) (List.cons_ne_nil name [])
        (apart notName) (apart notName.symm)
      refine ⟨_, _, settles_sweeps moves, fun _ => .made vacant shows' later ?_ ?_⟩
      · refine spread.same isStage rfl (fun own isOwn => ?_) fun head isOther notOwn => ?_
        · cases isOwn
          exact Branch.beneath_relocated_source branch notName
        · have differ : head ≠ staging := fun same => notOwn (congrArg some same.symm)
          exact Branch.beneath_relocated_of_ne branch differ isOther
      · exact (Contest.Settled.nobody unknown absent).wins rfl absent
          ⟨identities, (branch.beneath_relocated_target staging name).trans prepared⟩
  | winner isWinner only taken =>
      obtain ⟨first', second, isThere, isDocuments⟩ := parts_of_taken named taken
      have notVacant : machine.disk.isVacant (home ++ ([] ++ [name])) = false := by
        refine Bool.eq_false_iff.mpr fun isVacant => ?_
        have nothing : branch [name, "docs"] = none := (shows.isVacant_iff _).mp isVacant "docs"
        cases nothing.symm.trans isDocuments
      have refuses := shows.rename_occupied vacant (Branch.leads_nil branch) (plainOf named.plain)
        (show 0 < 3 by decide) located isThere (apart notName) (apart notName.symm)
      rw [notVacant] at refuses
      have moves : machine.disk.answer
          (.rename (store.root.child staging) (store.collectionPath name))
            = (if false then .ok () else .error .notEmpty, machine.disk) := by
        rw [path]
        exact congrArg machine.disk.changing refuses
      refine ⟨_, _, settles_sweeps moves, fun _ => .made vacant shows later ?_ ?_⟩
      · refine spread.same isStage rfl (fun own isOwn => ?_) fun _ _ _ => rfl
        cases isOwn
        exact ⟨identities, prepared⟩
      · exact (Contest.Settled.winner isWinner only taken).loses isStage rfl rfl
          ((contest named).not_vacant taken)

/-- What is left under the hidden name is removed. -/
theorem goes_sweeps {made : Bool} (isStage : stages place = some (.sweeps staging made))
    (unused : view.beneath staging = fun _ => none) :
    Goes store view named first stages machine place (.sweeps staging made) := by
  obtain ⟨plainStaging, notName⟩ := staging_plain named spread isStage rfl
  have removes := shows.removeTree_below vacant (Branch.leads_nil branch)
    (show ∀ other ∈ [] ++ [staging], Plain other by simpa using plainStaging)
    (show 0 < 3 by decide)
  have shows' := shows.without (List.cons_ne_nil staging [])
  refine ⟨_, _, sweeps_ended removes, fun _ => .made vacant shows' later ?_ ?_⟩
  · exact spread.drops isStage rfl rfl ((Branch.beneath_without_self branch staging).trans unused.symm)
      fun head differ => Branch.beneath_without_of_ne branch differ
  · exact settled.same isStage rfl (fun _ => id) (Branch.beneath_without_of_ne branch notName.symm)

end

end

section

variable {store : FileStore} {view : Branch} {name : String} {first : Nat}
  {stages : Nat → Option Creation} {place : Nat} {stage : Creation} {machine : Machine}
  (named : Named name)

/-- While no creation has drawn a name, and none has looked in vain, all is as it was. -/
theorem spread_of_early (view : Branch) (first names : Nat) (absent : ∀ rest, view (name :: rest) = none)
    (early : ∀ place stage, stages place = some stage → stage = .looks ∨ stage = .ensures) :
    (contest named).Spread view.beneath first names stages view.beneath
      ∧ (contest named).Settled stages view.beneath := by
  refine Contest.start (fun place stage isStage => ?_) (funext absent)
  rcases early place stage isStage with rfl | rfl <;> exact ⟨rfl, rfl⟩

/-- Over a root that is yet to be made a creation finds nothing, or it makes the root. -/
theorem goes_unmade {home : Place} (unmade : Unmade machine.disk store.root home)
    (later : first ≤ machine.names) (empty : view = fun _ => none)
    (early : ∀ place stage, stages place = some stage → stage = .looks ∨ stage = .ensures)
    (isStage : stages place = some stage) :
    Goes store view named first stages machine place stage := by
  rcases early place stage isStage with rfl | rfl
  · have isAbsent : machine.disk.status (store.documentsPath name) = .error .noEntry := by
      rw [documentsPath, partPath_eq unmade.resolved named]
      exact unmade.status named.plain_documents (show 2 ≤ 3 by decide)
    refine ⟨_, _, looks_absent isAbsent, fun _ => .unmade unmade later empty fun other stage' => ?_⟩
    by_cases here : other = place
    · rw [here, Function.update_self]
      rintro ⟨⟩
      exact .inr rfl
    · rw [Function.update_of_ne here]
      exact early other stage'
  · obtain ⟨made, makes, vacant, _, _⟩ := unmade.exists_vacant
    have shows : Shows made home (fun _ => none) made := vacant.shows
    obtain ⟨spread, settled⟩ := spread_of_early named (fun _ => none) first machine.names
      (fun _ => rfl) early
    refine ⟨_, _, ensures_draws unmade.resolved.nonempty makes, fun _ =>
      .made vacant shows later ?_ (settled.same isStage rfl (fun _ => id) rfl)⟩
    subst empty
    exact spread.idle isStage rfl rfl fun _ _ => rfl

variable {named} in
/-- **A creation goes on** from every stage but the last, and all is as it has to be. -/
theorem Racing.goes
    (unused : ∀ number, first ≤ number → number < Nat.pow 10 Machine.freshNameLength →
      view.beneath (".staging-" ++ Machine.freshName number) = fun _ => none)
    (racing : Racing store.root view named first stages machine)
    (few : machine.names ≤ Nat.pow 10 Machine.freshNameLength)
    (isStage : stages place = some stage) :
    (∃ made, stage = .ended made) ∨ Goes store view named first stages machine place stage := by
  cases racing with
  | unmade unmade later empty early =>
      exact .inr (goes_unmade named unmade later empty early isStage)
  | made vacant shows later spread settled =>
      cases stage with
      | looks => exact .inr (goes_looks named vacant shows later spread settled isStage)
      | ensures => exact .inr (goes_ensures named vacant shows later spread settled isStage)
      | draws => exact .inr (goes_draws named vacant shows later spread settled isStage unused)
      | prepares staging =>
          exact .inr (goes_prepares named vacant shows later spread settled isStage)
      | furnishes staging =>
          exact .inr (goes_furnishes named vacant shows later spread settled isStage)
      | settles staging => exact .inr (goes_settles named vacant shows later spread settled isStage)
      | sweeps staging made =>
          obtain ⟨number, after, before, isStaging⟩ :=
            spread.drawn place staging (Contest.ownAt_of_isStage isStage)
          have isUnused := unused number after (Nat.lt_of_lt_of_le before few)
          exact .inr (goes_sweeps named vacant shows later spread settled isStage
            (isStaging ▸ isUnused))
      | ended made => exact .inl ⟨made, rfl⟩

end

/-! ## Creations in a pool -/

section

variable {store : FileStore} {name : String}

/-- What is created depends on the root only. -/
theorem create_eq {store' : FileStore} (same : store'.root = store.root) :
    store'.create name = store.create name := by
  cases store
  cases store'
  cases same
  rfl

/-- The creation of a collection asks at most seven requests. -/
theorem asksAtMost_create : (store.create name).AsksAtMost Request.Free 7 := by
  have settles (staging : Path) : (store.settle name staging).AsksAtMost Request.Free (1 + 0) := by
    refine Host.asksAtMost_tryCall_bind (fun _ => .pure _) fun errno => ?_
    dsimp only
    split
    · exact .pure _
    · exact .fail _
  have looks : (store.exists? name).AsksAtMost Request.Free (1 + 0) := by
    refine Host.asksAtMost_tryCall_bind (fun _ => .pure _) fun errno => ?_
    dsimp only
    split
    · exact .pure _
    · exact .fail _
  have stages (staging : Path) :
      (store.stage name staging).AsksAtMost Request.Free ((1 + 0) + ((1 + 0) + (1 + 0))) :=
    .bind (Files.asksAtMost_ensureDirectory _) fun _ =>
      .bind (Files.asksAtMost_ensureDirectory _) fun _ => settles staging
  show (store.create name).AsksAtMost Request.Free
    ((1 + 0) + ((1 + 0) + (1 + (((1 + 0) + ((1 + 0) + (1 + 0))) + 1))))
  refine .bind looks fun found => ?_
  split
  · exact .pure _
  · refine .bind (Files.asksAtMost_ensureDirectory _) fun _ => ?_
    refine .bind (Host.asksAtMost_ask trivial) fun name => ?_
    exact .andFinally (stages _) (Host.asksAtMost_callAs _ _)

end

/-- What becomes of creations of one collection in a pool: at every moment the collection is absent
or whole, none fails, and when all have ended one of them has created it and nothing else has
changed. -/
structure CreatesOnce (root : Path) (view : Branch) (name : String)
    (pool : Pool (Except Failure Bool)) : Prop where
  whole : ∃ branch, Houses root branch pool.machine.disk
    ∧ (branch.beneath name = (fun _ => none)
      ∨ ∃ identities, branch.beneath name = emptyCollection identities)
  succeeds : ∀ (place : Nat) (result : Except Failure Bool),
    pool.program? place = some (.done result) → ∃ made, result = .ok made
  once : ∀ results : List (Except Failure Bool), pool.results? = some results → results ≠ [] →
    (∃! place : Nat, results[place]? = some (.ok true))
      ∧ ∃ identities, Houses root (created view name identities) pool.machine.disk

section

variable {store : FileStore} {view : Branch} {name : String} {first : Nat}
  {stages : Nat → Option Creation} {machine : Machine}

/-- At the start a number of creations are about to look whether the collection is there. -/
def begun (count : Nat) (place : Nat) : Option Creation :=
  if place < count then some .looks else none

theorem Racing.start {root : Path} (named : Named name) (houses : Houses root view machine.disk)
    (free : ∀ rest, view (name :: rest) = none) (count : Nat) :
    Racing root view named machine.names (begun count) machine := by
  have early (place : Nat) (stage : Creation) (isStage : begun count place = some stage) :
      stage = .looks ∨ stage = .ensures := by
    unfold begun at isStage
    split at isStage
    · exact .inl (Option.some.inj isStage).symm
    · cases isStage
  cases houses with
  | unmade unmade => exact .unmade unmade (Nat.le_refl _) rfl early
  | made vacant shows =>
      obtain ⟨spread, settled⟩ :=
        spread_of_early named view machine.names machine.names free early
      exact .made vacant shows (Nat.le_refl _) spread settled

/-- What is known of all stages is known of the pool. -/
theorem Racing.createsOnce {pool : Pool (Except Failure Bool)} {named : Named name}
    (top : view [] = none)
    (unused : ∀ number, first ≤ number → number < Nat.pow 10 Machine.freshNameLength →
      view.beneath (".staging-" ++ Machine.freshName number) = fun _ => none)
    (stands : Pool.At (program store name) stages pool)
    (racing : Racing store.root view named first stages pool.machine)
    (few : pool.machine.names ≤ Nat.pow 10 Machine.freshNameLength) :
    CreatesOnce store.root view name pool := by
  have ended {place : Nat} {result : Except Failure Bool}
      (isDone : pool.program? place = some (.done result)) :
      ∃ made, stages place = some (.ended made) ∧ result = .ok made := by
    obtain ⟨stage, isStage, isDone⟩ := stands.exists_stage isDone
    rcases racing.goes unused few isStage with ⟨made, rfl⟩ | goes
    · exact ⟨made, isStage, (Program.done.inj isDone).symm⟩
    · obtain ⟨_, _, proceeds, _⟩ := goes
      exact absurd isDone (proceeds.not_done result)
  refine ⟨?_, fun place result isDone => ?_, fun results areResults nonempty => ?_⟩
  · cases racing with
    | unmade unmade => exact ⟨_, .unmade unmade, .inl rfl⟩
    | made vacant shows _ _ settled =>
        refine ⟨_, .made vacant shows, ?_⟩
        cases settled with
        | nobody _ absent => exact .inl absent
        | winner _ _ taken => exact .inr taken
  · obtain ⟨made, _, isResult⟩ := ended isDone
    exact ⟨made, isResult⟩
  · have isEnded {place : Nat} {result : Except Failure Bool}
        (isResult : results[place]? = some result) :
        ∃ made, stages place = some (.ended made) ∧ result = .ok made := by
      refine ended ?_
      rw [Pool.program?_of_results areResults, isResult, Option.map_some]
    have isStageOf {place : Nat} {stage : Creation} (isStage : stages place = some stage) :
        ∃ made, stage = .ended made ∧ results[place]? = some (.ok made) := by
      obtain ⟨result, _, isResult⟩ := stands.exists_result areResults isStage
      obtain ⟨made, isStage', rfl⟩ := isEnded isResult
      rw [isStage] at isStage'
      exact ⟨made, Option.some.inj isStage', isResult⟩
    have tells (place : Nat) (made : Bool) :
        (contest named).wonAt stages place = some made ↔ results[place]? = some (.ok made) := by
      constructor
      · intro told
        obtain ⟨stage, isStage, tells⟩ := Option.bind_eq_some_iff.mp told
        obtain ⟨made', rfl, isResult⟩ := isStageOf isStage
        cases (show some made' = some made from tells)
        exact isResult
      · intro isResult
        obtain ⟨made', isStage, same⟩ := isEnded isResult
        cases same
        exact Contest.wonAt_of_isStage isStage
    obtain ⟨result, rest, rfl⟩ := List.exists_cons_of_ne_nil nonempty
    obtain ⟨made, isFirst, rfl⟩ := isEnded (List.getElem?_cons_zero)
    cases racing with
    | unmade _ _ _ early => rcases early 0 _ isFirst with isEarly | isEarly <;> cases isEarly
    | made vacant shows _ spread settled =>
        cases settled with
        | nobody unknown _ =>
            have told := unknown 0
            rw [(tells 0 made).mpr List.getElem?_cons_zero] at told
            cases told
        | @winner winner _ _ only taken =>
            obtain ⟨identities, complete⟩ := taken
            refine ⟨⟨winner, (tells winner true).mp ((only winner).mpr rfl), fun other isMade =>
              (only other).mp ((tells other true).mpr isMade)⟩, identities, ?_⟩
            have same := created_eq (shows.top.trans top.symm) complete fun head notName =>
              spread.elsewhere head notName fun place isOwn => by
                obtain ⟨stage, isStage, uses⟩ := Option.bind_eq_some_iff.mp isOwn
                obtain ⟨made', rfl, _⟩ := isStageOf isStage
                exact nomatch (show none = some head from uses)
            exact same ▸ .made vacant shows

end

/-- **Of several creations of a collection**, in any order of their steps, exactly one creates it:
none fails, the collection is absent or whole at every moment, and at the end nothing is left of
what was prepared.  They all end when each has had seven turns. -/
theorem creates_once {root : Path} {view : Branch} {name : String} {machine : Machine}
    {stores : List FileStore} (named : Named name) (sameRoot : ∀ store ∈ stores, store.root = root)
    (houses : Houses root view machine.disk) (free : ∀ rest, view (name :: rest) = none)
    (unused : ∀ number, machine.names ≤ number → number < Nat.pow 10 Machine.freshNameLength →
      ∀ rest, view ((".staging-" ++ Machine.freshName number) :: rest) = none)
    {schedule : List Nat}
    (few : ((Pool.start (stores.map fun store => (store.create name).toProgram) machine).after
      schedule).machine.names ≤ Nat.pow 10 Machine.freshNameLength) :
    CreatesOnce root view name
        ((Pool.start (stores.map fun store => (store.create name).toProgram) machine).after schedule)
      ∧ ((∀ place < stores.length, 7 ≤ schedule.count place) →
        ∃ results, ((Pool.start (stores.map fun store => (store.create name).toProgram)
          machine).after schedule).results? = some results) := by
  have top : view [] = none := by
    cases houses with
    | unmade _ => rfl
    | made _ shows => exact shows.top
  have few' := Nat.le_trans (Pool.names_le_after _ schedule) few
  -- Which of the stores creates makes no difference, so one of them stands for all.
  obtain ⟨store, rfl⟩ : ∃ store : FileStore, store.root = root :=
    ⟨{ Database.newStore with root }, rfl⟩
  have programs : stores.map (fun store => (store.create name).toProgram)
      = List.replicate stores.length (program store name .looks) := by
    refine List.eq_replicate_iff.mpr ⟨List.length_map _, fun other member => ?_⟩
    obtain ⟨store', isStore, rfl⟩ := List.mem_map.mp member
    rw [create_eq (sameRoot store' isStore)]
    rfl
  have stands : Pool.At (program store name) (begun stores.length)
      (Pool.start (stores.map fun store => (store.create name).toProgram) machine) := by
    intro place
    rw [Pool.program?_start, programs, List.getElem?_replicate, begun]
    split <;> rfl
  have unused' (number : Nat) (later : machine.names ≤ number)
      (before : number < Nat.pow 10 Machine.freshNameLength) :
      view.beneath (".staging-" ++ Machine.freshName number) = fun _ => none :=
    funext (unused number later before)
  refine ⟨?_, fun turns => ?_⟩
  · obtain ⟨stages, stands', racing, _⟩ := Pool.At.after
      (fun stages machine' => Racing store.root view named machine.names stages machine'
        ∧ machine'.names ≤ Nat.pow 10 Machine.freshNameLength)
      (fun stages machine' place stage kept isStage => by
        rcases kept.1.goes unused' kept.2 isStage with ⟨made, rfl⟩ | goes
        · exact .inl ⟨.ok made, rfl⟩
        · obtain ⟨stage', machine'', proceeds, racing⟩ := goes
          exact .inr ⟨stage', machine'', proceeds, fun few => ⟨racing few, few⟩⟩)
      stands ⟨.start named houses free _, few'⟩ few
    exact racing.createsOnce top unused' stands' few
  · have asks : ∀ program ∈ stores.map fun store => (store.create name).toProgram,
        program.AsksAtMost Request.Free 7 := by
      intro program isProgram
      obtain ⟨store, _, rfl⟩ := List.mem_map.mp isProgram
      exact asksAtMost_create
    exact Pool.exists_results machine asks fun place inside =>
      turns place (by rwa [List.length_map] at inside)

/-- Two creations of which the one that begins later moves first. -/
def overtaken : Pool (Except Failure Bool) :=
  (Pool.start ([Database.newStore, Database.newStore].map fun store =>
    (store.create "users").toProgram) Machine.start).after [0, 0, 0, 1, 1, 1, 0, 0, 1, 1, 1, 0, 0, 1]

theorem overtaken_creates_once :
    overtaken.machine.names ≤ Nat.pow 10 Machine.freshNameLength
      ∧ CreatesOnce ["data"] (fun _ => none) "users" overtaken
      ∧ overtaken.results?.map (·.map Except.toOption) = some [some false, some true] := by
  have few : overtaken.machine.names ≤ Nat.pow 10 Machine.freshNameLength := by decide +kernel
  refine ⟨few, ?_, by decide +kernel⟩
  exact (creates_once (Files.named_of_nameFault? (by decide)) (by simp [Database.newStore])
    (.unmade Database.unmade_start) (fun _ => rfl) (fun _ _ _ _ => rfl) few).1

end FileStore

end DocStore
