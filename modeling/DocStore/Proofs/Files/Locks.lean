import DocStore.Proofs.Files.Collections
/-!
# Lock files below a root

While no lock is held there is at most an empty directory for locks (`Unlocked`), and while one is
held that directory holds its file alone (`Held`).  With no other program about, who takes a lock
finds the place of the file free at once, and who gives it back leaves no file behind; nothing else
below the root is touched (`Alike`), whatever it is (`takes_lock`, `gives_lock`), and so what a
cabinet keeps stays as it is (`Keeps.alike`).
-/

set_option autoImplicit false

namespace DocStore

open Disk (Branch Entry Path Place Plain Shows Vacant)
open Files (Named)
open Host (Action Machine Yields)

/-- There is no lock file: the directory for them is empty if it is there. -/
structure Unlocked (locked : Branch) : Prop where
  directory : locked [] = none ∨ ∃ identity, locked [] = some (.directory identity)
  bare : ∀ names, names ≠ [] → locked names = none

/-- The only lock file is the one of a collection. -/
structure Held (name : String) (locked : Branch) : Prop where
  directory : ∃ identity, locked [] = some (.directory identity)
  file : ∃ identity content, locked [name ++ ".lock"] = some (.file identity content)
  alone : ∀ names, names ≠ [] → names ≠ [name ++ ".lock"] → locked names = none

theorem unlocked_nothing : Unlocked fun _ => none := ⟨.inl rfl, fun _ _ => rfl⟩

theorem Unlocked.makes {locked : Branch} (unlocked : Unlocked locked) (identity : Nat) :
    Unlocked (Function.update locked [] (some (.directory identity))) where
  directory := .inr ⟨identity, Function.update_self ..⟩
  bare names nonempty := by rw [Function.update_of_ne nonempty, unlocked.bare names nonempty]

theorem Unlocked.holds {locked : Branch} (unlocked : Unlocked locked) {directory : Nat}
    (isDirectory : locked [] = some (.directory directory)) (name : String) (identity : Nat)
    (content : String) :
    Held name (Function.update locked [name ++ ".lock"] (some (.file identity content))) where
  directory := ⟨directory, by rw [Function.update_of_ne (by simp), isDirectory]⟩
  file := ⟨identity, content, Function.update_self ..⟩
  alone names nonempty other := by rw [Function.update_of_ne other, unlocked.bare names nonempty]

theorem Held.releases {locked : Branch} {name : String} (held : Held name locked) :
    Unlocked (Function.update locked [name ++ ".lock"] none) where
  directory := by
    rw [Function.update_of_ne (by simp)]
    exact .inr held.directory
  bare names nonempty := by
    by_cases isFile : names = [name ++ ".lock"]
    · rw [isFile, Function.update_self]
    · rw [Function.update_of_ne isFile, held.alone names nonempty isFile]

/-- Two branches differ at most in what there is about locks. -/
def Alike (branch branch' : Branch) : Prop :=
  ∀ names, names.head? ≠ some lockDirectory → branch' names = branch names

/-- What there is about locks. -/
def locksOf (branch : Branch) : Branch := fun names => branch (lockDirectory :: names)

section

variable {branch branch' branch'' : Branch}

theorem Alike.refl (branch : Branch) : Alike branch branch := fun _ _ => rfl

theorem Alike.trans (first : Alike branch branch') (second : Alike branch' branch'') :
    Alike branch branch'' := fun names noLock => (second names noLock).trans (first names noLock)

theorem Alike.cons (alike : Alike branch branch') {name : String} (noLock : name ≠ lockDirectory)
    (rest : List String) : branch' (name :: rest) = branch (name :: rest) :=
  alike _ fun same => noLock (Option.some.inj same)

theorem alike_update (branch : Branch) (names : List String) (found : Option Entry) :
    Alike branch (Function.update branch (lockDirectory :: names) found) := by
  intro other noLock
  refine Function.update_of_ne ?_ ..
  rintro rfl
  exact noLock rfl

theorem locksOf_update (branch : Branch) (names : List String) (found : Option Entry) :
    locksOf (Function.update branch (lockDirectory :: names) found)
      = Function.update (locksOf branch) names found := by
  funext other
  by_cases same : other = names
  · rw [same, locksOf, Function.update_self, Function.update_self]
  · rw [locksOf, Function.update_of_ne (by simpa using same), Function.update_of_ne same, locksOf]

/-- What there is about locks has no part in the cabinet. -/
theorem Keeps.alike {layouts : Set Json.Layout} {cabinet : Cabinet} {locked : Branch}
    (keeps : Keeps layouts cabinet locked branch) (alike : Alike branch branch') :
    Keeps layouts cabinet (locksOf branch') branch' where
  orderly := keeps.orderly
  kept names noLock := by
    rw [alike names noLock]
    exact keeps.kept names noLock
  locked _ := rfl

theorem Keeps.locksOf_eq {layouts : Set Json.Layout} {cabinet : Cabinet} {locked : Branch}
    (keeps : Keeps layouts cabinet locked branch) : locksOf branch = locked := funext keeps.locked

end

namespace FileLock

/-- A lock is tried for at least once. -/
theorem exists_maxAttempts (lock : FileLock) : ∃ others, lock.maxAttempts = others + 1 := by
  refine Nat.exists_eq_add_one_of_ne_zero ?_
  unfold maxAttempts
  split
  · exact Nat.succ_ne_zero _
  · exact Nat.ne_of_gt (show 0 < boundlessAttempts by simp [boundlessAttempts])

/-- The record is written into the file of the lock. -/
theorem signs {origin : Disk} {home : Place} {machine : Machine} {branch : Branch} (lock : FileLock)
    {handle : Nat} (shows : Shows origin home branch
      (machine.disk.setContent handle (record machine.processId machine.clock))) :
    Yields origin home (lock.sign handle) machine (.ok ()) (Eq branch) :=
  .ask_bind rfl (.refl _) (.ask_bind rfl (.refl _) (.tryCall_bind rfl (.pure () shows rfl)))

end FileLock

namespace FileStore

section

variable {store : FileStore} {origin : Disk} {home : Place} {machine : Machine} {branch : Branch}
  (vacant : Vacant origin store.root home) (shows : Shows origin home branch machine.disk)

theorem lockPath_eq (resolved : Path.Resolved store.root) {name : String} (named : Named name) :
    (store.lockOf name).path
      = store.root.trimmed ++ ([lockDirectory] ++ [name ++ ".lock"]) := by
  have plain : ∀ other ∈ [lockDirectory], Plain other := by
    intro other member
    rw [List.mem_singleton.mp member]
    decide
  have resolved' := Path.resolved_below resolved (show [lockDirectory] ≠ [] by simp) plain
  refine (Path.append_eq resolved' named.plain_lock).trans ?_
  rw [Path.trimmed_below _ (by simp) plain, List.append_assoc]

theorem plain_lockNames {name : String} (named : Named name) :
    ∀ other ∈ [lockDirectory] ++ [name ++ ".lock"], Plain other := by
  intro other member
  simp only [List.cons_append, List.nil_append, List.mem_cons, List.not_mem_nil, or_false] at member
  rcases member with rfl | rfl
  · decide
  · exact named.plain_lock

include vacant shows

/-- The directory for the locks is there once it has been asked for. -/
theorem makes_lockDirectory (unlocked : Unlocked (locksOf branch))
    (failure : Disk.Obstacle → Failure) :
    Yields origin home (Host.makeDirectories (store.root.trimmed ++ ([] ++ [lockDirectory])) failure)
      machine (.ok ()) fun branch' => Unlocked (locksOf branch')
        ∧ (∃ identity, branch' [lockDirectory] = some (.directory identity))
        ∧ Alike branch branch' := by
  have leads := Branch.leads_nil branch
  have plain : ∀ other ∈ [] ++ [lockDirectory], Plain other := by
    intro other member
    rw [List.mem_singleton.mp member]
    decide
  rcases unlocked.directory with free | ⟨identity, there⟩
  · have makes := shows.makeDirectories_free vacant leads plain (show 0 < 3 by decide) free
    refine (Yields.makeDirectories makes (shows.addDirectory (by simp))).mono fun _ same => ?_
    rw [← same, List.nil_append, locksOf_update]
    exact ⟨unlocked.makes machine.disk.nextIdentity, ⟨_, Function.update_self ..⟩,
      alike_update branch [] _⟩
  · have makes := shows.makeDirectories_directory vacant leads plain (show 0 < 3 by decide) there
    refine (Yields.makeDirectories makes shows).mono fun _ same => ?_
    rw [← same]
    exact ⟨unlocked, ⟨identity, there⟩, .refl branch⟩

/-- A lock is obtained at the first attempt when no other one is held, and nothing else changes. -/
theorem takes_lock (unlocked : Unlocked (locksOf branch)) {name : String} (named : Named name) :
    ∃ handle, Yields origin home (store.lockOf name).acquire machine (.ok handle)
      fun branch' => Held name (locksOf branch') ∧ Alike branch branch' := by
  have path := lockPath_eq vacant.resolved named
  have parent : (store.lockOf name).path.parent = store.root.trimmed ++ ([] ++ [lockDirectory]) := by
    rw [path, ← List.append_assoc]
    exact Path.parent_concat (by simp) named.plain_lock.nonempty
  obtain ⟨middle, branch', run, same, shows, unlocked', ⟨directory, isDirectory⟩, alike⟩ :=
    makes_lockDirectory vacant shows unlocked
      fun obstacle => .system ⟨obstacle.errno, "mkdir", some obstacle.path.text⟩
  have leads : branch'.Leads [lockDirectory] := (Branch.leads_nil branch').concat isDirectory
  have free : branch' ([lockDirectory] ++ [name ++ ".lock"]) = none := unlocked'.bare _ (by simp)
  have opens := congrArg middle.disk.opening (shows.openNew_free vacant leads (plain_lockNames named)
    (show 1 < 3 by decide) free)
  obtain ⟨others, budget⟩ := (store.lockOf name).exists_maxAttempts
  refine ⟨middle.disk.nextIdentity, .ask_bind rfl (.refl _) ?_⟩
  rw [parent, budget]
  refine .step_bind run same ?_
  rw [FileLock.attempts, path]
  refine .tryCall_bind opens (.bind_same ((store.lockOf name).signs
    (shows.addWritten vacant (by simp) _)) fun _ _ shows => .pure _ shows ⟨?_, ?_⟩)
  · rw [List.singleton_append, locksOf_update]
    exact unlocked'.holds isDirectory name _ _
  · exact alike.trans (alike_update branch' _ _)

/-- A lock that is given back leaves no file, and nothing else changes. -/
theorem gives_lock {name : String} (held : Held name (locksOf branch)) (named : Named name)
    (handle : Nat) :
    Yields origin home ((store.lockOf name).release handle) machine (.ok ())
      fun branch' => Unlocked (locksOf branch') ∧ Alike branch branch' := by
  obtain ⟨directory, there⟩ := held.directory
  obtain ⟨identity, content, file⟩ := held.file
  have bare : branch.Bare [lockDirectory, name ++ ".lock"] := fun rest nonempty =>
    held.alone ((name ++ ".lock") :: rest) (by simp) (by simpa using nonempty)
  have leads : branch.Leads [lockDirectory] := (Branch.leads_nil branch).concat there
  have removes := congrArg machine.disk.changing (shows.unlink_file vacant leads
    (plain_lockNames named) (show 1 < 3 by decide) file)
  rw [FileLock.release, lockPath_eq vacant.resolved named]
  refine .tryCall_bind rfl (.tryCall_bind removes (.pure () (shows.without (by simp)) ?_))
  rw [List.singleton_append, Branch.without_eq_update bare, locksOf_update]
  exact ⟨held.releases, alike_update branch _ none⟩

end

end FileStore

end DocStore
