import DocStore.Proofs.Files.Lands
/-!
# Lock files of several programs

The directory of the lock files holds a file for each program that holds a lock, and nothing else
(`LockFiles`).  So whoever asks for the lock of a collection that somebody holds is refused
(`LockFiles.refuses`), and otherwise obtains it (`LockFiles.opens`).  What programs do in their
lands does not concern the lock files (`LockFiles.beside`).
-/

set_option autoImplicit false

namespace DocStore

open Disk (Branch Becomes Path Place Plain Sees Shows Under Vacant)
open Files (Named)

/-- What stays in a view of the lock files stays below the root. -/
theorem Disk.Sees.stays {origin : Disk} {home : Place} {view view' branch branch' : Branch}
    {disk disk' : Disk} (sees : Sees origin home {lockDirectory} view branch disk)
    (sees' : Sees origin home {lockDirectory} view' branch' disk')
    (same : view' [lockDirectory] = view [lockDirectory]) :
    branch' [lockDirectory] = branch [lockDirectory] := by
  have own : Under {lockDirectory} [lockDirectory] := Set.mem_singleton lockDirectory
  rw [sees'.same _ own, same, sees.same _ own]

/-- The directory of the lock files holds one file for each holder of a lock. -/
structure LockFiles (setting : Setting) (name : Nat → String) (stages : Nat → Stage)
    (view branch : Branch) (disk : Disk) : Prop where
  sees : Sees setting.origin setting.home {lockDirectory} view branch disk
  directory : view [lockDirectory] = none
    ∨ ∃ identity, view [lockDirectory] = some (.directory identity)
  ready : ∀ place, stages place ≠ .outside →
    ∃ identity, view [lockDirectory] = some (.directory identity)
  file : ∀ place tenure, stages place = .holding tenure →
    setting.origin.nextIdentity ≤ tenure.handle
      ∧ ∃ content, view (lockNames (name place)) = some (.file tenure.handle content)
  only : ∀ rest, rest ≠ [] → view (lockDirectory :: rest) ≠ none →
    ∃ place tenure, stages place = .holding tenure ∧ rest = [name place ++ ".lock"]

namespace LockFiles

variable {setting : Setting} {name : Nat → String} {stages : Nat → Stage} {view branch : Branch}
  {disk : Disk}

theorem start (shows : Shows setting.origin setting.home (fun _ => none) disk) :
    LockFiles setting name (fun _ => .outside) (fun _ => none) (fun _ => none) disk where
  sees := shows.sees_nothing fun _ _ => rfl
  directory := .inl rfl
  ready _ arrived := absurd rfl arrived
  file _ _ isHolding := nomatch isHolding
  only _ _ there := absurd rfl there

variable (files : LockFiles setting name stages view branch disk)
include files

/-- What changes elsewhere does not concern the lock files. -/
theorem beside {heads : Set String} {view' branch' : Branch} {disk' : Disk}
    (changed : Sees setting.origin setting.home heads view' branch' disk')
    (unmoved : ∀ names, ¬ Under heads names → branch' names = branch names)
    (apart : lockDirectory ∉ heads) : LockFiles setting name stages view branch' disk' where
  __ := files
  sees := files.sees.beside changed unmoved fun _ isHead =>
    Set.mem_singleton_iff.mp isHead ▸ apart

/-- A program goes on without touching the lock files. -/
theorem goesOn {place : Nat} {stage : Stage} (arrived : stages place ≠ .outside)
    (holding : ∀ tenure, stage = .holding tenure →
      ∃ tenure', stages place = .holding tenure' ∧ tenure'.handle = tenure.handle)
    (holding' : ∀ tenure, stages place = .holding tenure → ∃ tenure', stage = .holding tenure') :
    LockFiles setting name (Function.update stages place stage) view branch disk where
  sees := files.sees
  directory := files.directory
  ready other arrived' := by
    by_cases same : other = place
    · exact files.ready place arrived
    · rw [Function.update_of_ne same] at arrived'
      exact files.ready other arrived'
  file other tenure isHolding := by
    by_cases same : other = place
    · subst same
      rw [Function.update_self] at isHolding
      obtain ⟨tenure', isHolding', sameHandle⟩ := holding tenure isHolding
      exact sameHandle ▸ files.file other tenure' isHolding'
    · rw [Function.update_of_ne same] at isHolding
      exact files.file other tenure isHolding
  only rest nonempty there := by
    obtain ⟨other, tenure, isHolding, isFile⟩ := files.only rest nonempty there
    by_cases same : other = place
    · subst same
      obtain ⟨tenure', isHolding'⟩ := holding' tenure isHolding
      exact ⟨other, tenure', by rw [Function.update_self, isHolding'], isFile⟩
    · exact ⟨other, tenure, by rw [Function.update_of_ne same, isHolding], isFile⟩

/-- There is no lock file of a collection whose lock nobody holds. -/
theorem free {place : Nat}
    (nobody : ∀ other tenure, stages other = .holding tenure → name other ≠ name place) :
    view (lockNames (name place)) = none := by
  by_contra there
  obtain ⟨other, tenure, isHolding, isFile⟩ := files.only [name place ++ ".lock"] (by simp) there
  have same := (String.append_left_inj ".lock").mp (List.singleton_inj.mp isFile)
  exact nobody other tenure isHolding same.symm

/-- Nothing lies below a lock file. -/
theorem bare (name : String) : view.Bare (lockNames name) := by
  intro rest nonempty
  by_contra there
  obtain ⟨_, _, _, isFile⟩ := files.only ((name ++ ".lock") :: rest) (by simp) there
  exact nonempty (List.cons.inj isFile).2

/-- While nobody holds a lock there is no lock file. -/
theorem unlocked (nobody : ∀ place tenure, stages place ≠ .holding tenure) :
    Unlocked fun names => branch (lockDirectory :: names) := by
  have same (rest : List String) : branch (lockDirectory :: rest) = view (lockDirectory :: rest) :=
    files.sees.same _ (Set.mem_singleton lockDirectory)
  refine ⟨by simpa only [same] using files.directory, fun rest nonempty => ?_⟩
  by_contra there
  rw [same] at there
  obtain ⟨place, tenure, isHolding, _⟩ := files.only rest nonempty there
  exact nobody place tenure isHolding

variable {root : Path} (vacant : Vacant setting.origin root setting.home) {place : Nat}
include vacant

omit files vacant in
theorem under_lockNames (name : String) : Under {lockDirectory} (lockNames name) :=
  Set.mem_singleton lockDirectory

/-- The directory for the lock files is there once it has been asked for. -/
theorem comes (outside : stages place = .outside) :
    ∃ view' branch', (disk.makeDirectories (root.trimmed ++ [lockDirectory])).1 = .ok none
      ∧ LockFiles setting name (Function.update stages place (.waiting false)) view' branch'
        (disk.makeDirectories (root.trimmed ++ [lockDirectory])).2
      ∧ (∀ names, ¬ Under {lockDirectory} names → branch' names = branch names)
      ∧ (branch [lockDirectory] ≠ none → branch' [lockDirectory] = branch [lockDirectory]) := by
  have plain : ∀ other ∈ [] ++ [lockDirectory], Plain other := by
    intro other member
    rw [List.mem_singleton.mp member]
    decide
  have own : Under {lockDirectory} ([] ++ [lockDirectory]) := Set.mem_singleton lockDirectory
  have shows := files.sees.shows
  -- Only the entry of the directory can have changed.
  have arrives {view' branch' : Branch} {disk' : Disk}
      (sees : Sees setting.origin setting.home {lockDirectory} view' branch' disk')
      (isDirectory : ∃ identity, view' [lockDirectory] = some (.directory identity))
      (same : ∀ rest, rest ≠ [] → view' (lockDirectory :: rest) = view (lockDirectory :: rest)) :
      LockFiles setting name (Function.update stages place (.waiting false)) view' branch' disk' := by
    have holding {other : Nat} {tenure : Tenure}
        (isHolding : Function.update stages place (.waiting false) other = .holding tenure) :
        stages other = .holding tenure := by
      rw [Function.update_apply] at isHolding
      split at isHolding
      · cases isHolding
      · exact isHolding
    refine ⟨sees, .inr isDirectory, fun _ _ => isDirectory, fun other tenure isHolding => ?_,
      fun rest nonempty there => ?_⟩
    · obtain ⟨isNew, content, isFile⟩ := files.file other tenure (holding isHolding)
      exact ⟨isNew, content, (same _ (by simp)).trans isFile⟩
    · rw [same rest nonempty] at there
      obtain ⟨other, tenure, isHolding, isFile⟩ := files.only rest nonempty there
      refine ⟨other, tenure, ?_, isFile⟩
      rw [Function.update_of_ne, isHolding]
      rintro rfl
      rw [outside] at isHolding
      cases isHolding
  rcases files.directory with missing | isDirectory
  · have makes := shows.makeDirectories_free vacant (Branch.leads_nil branch) plain
      (show 0 < Disk.maxDepth by decide) ((files.sees.same [lockDirectory] own).trans missing)
    obtain ⟨branch', sees, unmoved⟩ := files.sees.addDirectory own
    rw [List.nil_append] at makes
    rw [makes]
    refine ⟨_, branch', rfl, arrives sees ⟨_, Function.update_self ..⟩ fun rest nonempty => ?_,
      unmoved, fun there => absurd ((files.sees.same [lockDirectory] own).trans missing) there⟩
    exact Function.update_of_ne (by simpa using nonempty) ..
  · obtain ⟨identity, isDirectory⟩ := isDirectory
    have makes := shows.makeDirectories_directory vacant (Branch.leads_nil branch) plain
      (show 0 < Disk.maxDepth by decide) ((files.sees.same [lockDirectory] own).trans isDirectory)
    rw [List.nil_append] at makes
    rw [makes]
    exact ⟨view, branch, rfl, arrives files.sees ⟨identity, isDirectory⟩ fun _ _ => rfl,
      fun _ _ => rfl, fun _ => rfl⟩

section

variable (named : Named (name place)) (arrived : stages place ≠ .outside)
include named arrived

omit named vacant in
theorem leads : branch.Leads [lockDirectory] := by
  obtain ⟨identity, isDirectory⟩ := files.ready place arrived
  exact files.sees.leads (show Under {lockDirectory} ([lockDirectory] ++ []) from
    Set.mem_singleton lockDirectory) ((Branch.leads_nil view).concat isDirectory)

/-- Who asks for a lock that somebody holds is refused. -/
theorem refuses {other : Nat} {tenure : Tenure} (isHolding : stages other = .holding tenure)
    (same : name other = name place) :
    disk.openNew (root.trimmed ++ lockNames (name place)) = .error .exists := by
  obtain ⟨_, content, isFile⟩ := files.file other tenure isHolding
  rw [same] at isFile
  exact files.sees.shows.openNew_there vacant (files.leads arrived) (FileStore.plain_lockNames named)
    (show 1 < Disk.maxDepth by decide)
    ((files.sees.same _ (under_lockNames (name place))).trans isFile)

/-- Who asks for a lock that nobody holds obtains it. -/
theorem opens (nobody : ∀ other tenure, stages other = .holding tenure → name other ≠ name place)
    {tenure : Tenure} (isHandle : tenure.handle = disk.nextIdentity) :
    ∃ view' branch' disk',
      disk.openNew (root.trimmed ++ lockNames (name place)) = .ok (disk.nextIdentity, disk')
        ∧ LockFiles setting name (Function.update stages place (.holding tenure)) view' branch' disk'
        ∧ (∀ names, ¬ Under {lockDirectory} names → branch' names = branch names)
        ∧ branch' [lockDirectory] = branch [lockDirectory] := by
  have own := under_lockNames (name place)
  have free := files.free nobody
  have makes := files.sees.shows.openNew_free vacant (files.leads arrived)
    (FileStore.plain_lockNames named) (show 1 < Disk.maxDepth by decide)
    ((files.sees.same _ own).trans free)
  obtain ⟨branch', sees, unmoved⟩ := files.sees.addFile own
  have elsewhere {rest : List String} (differ : rest ≠ [name place ++ ".lock"]) :
      Function.update view (lockNames (name place)) (some (.file disk.nextIdentity ""))
        (lockDirectory :: rest) = view (lockDirectory :: rest) :=
    Function.update_of_ne (by simpa [lockNames] using differ) ..
  have isDirectory : ∃ identity, Function.update view (lockNames (name place))
      (some (.file disk.nextIdentity "")) [lockDirectory] = some (.directory identity) := by
    rw [elsewhere (by simp)]
    exact files.ready place arrived
  refine ⟨_, branch', _, makes, ⟨sees, .inr isDirectory, fun _ _ => isDirectory, ?_, ?_⟩, unmoved,
    files.sees.stays sees (elsewhere (by simp))⟩
  · intro other tenure' isHolding
    by_cases same : other = place
    · subst same
      rw [Function.update_self] at isHolding
      cases isHolding
      exact ⟨isHandle ▸ files.sees.shows.grown, "", by rw [Function.update_self, isHandle]⟩
    · rw [Function.update_of_ne same] at isHolding
      obtain ⟨isNew, content, isFile⟩ := files.file other tenure' isHolding
      refine ⟨isNew, content, (elsewhere fun sameFile => ?_).trans isFile⟩
      exact nobody other tenure' isHolding
        ((String.append_left_inj ".lock").mp (List.singleton_inj.mp sameFile))
  · intro rest nonempty there
    by_cases isFile : rest = [name place ++ ".lock"]
    · exact ⟨place, tenure, Function.update_self .., isFile⟩
    · rw [elsewhere isFile] at there
      obtain ⟨other, tenure', isHolding, isFile'⟩ := files.only rest nonempty there
      refine ⟨other, tenure', ?_, isFile'⟩
      rw [Function.update_of_ne, isHolding]
      rintro rfl
      exact nobody other tenure' isHolding rfl

end

section

variable {tenure : Tenure} (isHolding : stages place = .holding tenure)
include isHolding

/-- The holder of a lock writes into its file. -/
theorem signs (content : String) :
    ∃ view' branch', LockFiles setting name stages view' branch'
        (disk.setContent tenure.handle content)
      ∧ (∀ names, ¬ Under {lockDirectory} names → branch' names = branch names)
      ∧ branch' [lockDirectory] = branch [lockDirectory] := by
  obtain ⟨isNew, old, isFile⟩ := files.file place tenure isHolding
  obtain ⟨branch', sees, unmoved⟩ :=
    files.sees.setContent vacant (under_lockNames (name place)) isNew isFile content
  have isDirectory : view.written tenure.handle content [lockDirectory] = view [lockDirectory] := by
    obtain ⟨identity, isDirectory⟩ := files.ready place (by simp [isHolding])
    rw [Branch.written, isDirectory]
    rfl
  refine ⟨_, branch', ⟨sees, ?_, ?_, ?_, ?_⟩, unmoved, files.sees.stays sees isDirectory⟩
  · refine files.directory.imp (fun missing => ?_) fun isDirectory => ?_
    · rw [Branch.written, missing, Option.map_none]
    · obtain ⟨identity, isDirectory⟩ := isDirectory
      exact ⟨identity, by rw [Branch.written, isDirectory]; rfl⟩
  · intro other arrived
    obtain ⟨identity, isDirectory⟩ := files.ready other arrived
    exact ⟨identity, by rw [Branch.written, isDirectory]; rfl⟩
  · intro other tenure' isHolding'
    obtain ⟨isNew', old', isFile'⟩ := files.file other tenure' isHolding'
    exact ⟨isNew', _, by rw [Branch.written, isFile']; rfl⟩
  · intro rest nonempty there
    refine files.only rest nonempty fun nothing => there ?_
    rw [Branch.written, nothing, Option.map_none]

/-- The holder of a lock removes its file. -/
theorem unlinks (named : Named (name place))
    (alone : ∀ other tenure', stages other = .holding tenure' → name other = name place →
      other = place) {stage : Stage} (past : ∀ tenure, stage ≠ .holding tenure) :
    ∃ view' branch' disk', disk.unlink (root.trimmed ++ lockNames (name place)) = .ok disk'
      ∧ LockFiles setting name (Function.update stages place stage) view' branch' disk'
      ∧ (∀ names, ¬ Under {lockDirectory} names → branch' names = branch names)
      ∧ branch' [lockDirectory] = branch [lockDirectory] := by
  have arrived : stages place ≠ .outside := by simp [isHolding]
  obtain ⟨_, content, isFile⟩ := files.file place tenure isHolding
  have own := under_lockNames (name place)
  have removes := files.sees.shows.unlink_file vacant (files.leads arrived)
    (FileStore.plain_lockNames named) (show 1 < Disk.maxDepth by decide)
    ((files.sees.same _ own).trans isFile)
  obtain ⟨branch', sees, unmoved⟩ := files.sees.without own
  rw [Branch.without_eq_update (files.bare (name place))] at sees
  have elsewhere {rest : List String} (differ : rest ≠ [name place ++ ".lock"]) :
      Function.update view (lockNames (name place)) none (lockDirectory :: rest)
        = view (lockDirectory :: rest) :=
    Function.update_of_ne (by simpa [lockNames] using differ) ..
  have isDirectory : ∃ identity, Function.update view (lockNames (name place)) none [lockDirectory]
      = some (.directory identity) := by
    rw [elsewhere (by simp)]
    exact files.ready place arrived
  refine ⟨_, branch', _, removes, ⟨sees, .inr isDirectory, fun _ _ => isDirectory, ?_, ?_⟩, unmoved,
    files.sees.stays sees (elsewhere (by simp))⟩
  · intro other tenure' isHolding'
    by_cases same : other = place
    · rw [same, Function.update_self] at isHolding'
      exact absurd isHolding' (past tenure')
    · rw [Function.update_of_ne same] at isHolding'
      obtain ⟨isNew, content', isFile'⟩ := files.file other tenure' isHolding'
      refine ⟨isNew, content', (elsewhere fun sameFile => ?_).trans isFile'⟩
      exact same (alone other tenure' isHolding'
        ((String.append_left_inj ".lock").mp (List.singleton_inj.mp sameFile)))
  · intro rest nonempty there
    by_cases isFile' : rest = [name place ++ ".lock"]
    · subst isFile'
      exact absurd (Function.update_self ..) there
    · rw [elsewhere isFile'] at there
      obtain ⟨other, tenure', isHolding', isFile''⟩ := files.only rest nonempty there
      refine ⟨other, tenure', ?_, isFile''⟩
      rw [Function.update_of_ne, isHolding']
      rintro rfl
      exact isFile' isFile''

end

end LockFiles

end DocStore
