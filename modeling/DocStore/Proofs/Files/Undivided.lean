import DocStore.Proofs.Files.Commits
import DocStore.Proofs.Files.Requests
/-!
# Operations that are interrupted

Every operation that changes one file, and every one that creates or drops a collection, has one
call that shows what it does: a link, a move or a removal.  All its other calls concern hidden
entries, or change nothing.  So wherever it is interrupted, what is seen is what was seen before or
what is seen after all of it (`Undivided`).  Dropping shows it by a move to a hidden name, so that a
collection is never seen to be removed in part.

`FileStore.undivided` says so of all these operations, below a root that has been made.
-/

set_option autoImplicit false

namespace DocStore

open Disk (Branch Entry Path Place Plain Shows Vacant)
open Files (Named Stored isHidden keyName)
open Host (Action LooksOf Machine Passes ShowsSome marked)

/-- An operation that creates or drops the collection of a name, or changes one file of it. -/
inductive Storage.Op.Alters (name : String) : Storage.Op .json → Prop
  | create : Alters name (.create name)
  | drop : Alters name (.drop name)
  | put (id : String) (document : Json) : Alters name (.put name id document)
  | replace (id : String) (document : Json) : Alters name (.replace name id document)
  | deleteById (id : String) : Alters name (.deleteById name id)
  | addCheck (key : String) (check : Constraint) : Alters name (.addCheck name key check)
  | dropCheck (key : String) : Alters name (.dropCheck name key)

/-- Wherever an action is interrupted, what is seen is what was seen before, or what is seen after
all of it. -/
def Undivided (origin : Disk) (home : Place) (branch : Branch) {α : Type} (action : Action α)
    (machine : Machine) : Prop :=
  ∃ result last, Tidy last ∧
    Passes origin home (fun other => SeenAlike other branch ∨ SeenAlike other last) action machine
      result (SeenAlike · last)

namespace Undivided

variable {α β : Type} {origin : Disk} {home : Place} {branch : Branch} {machine : Machine}

/-- An action of which nothing is seen. -/
theorem of_still {action : Action α} {result : Except Failure α} (tidy : Tidy branch)
    (passes : Passes origin home (SeenAlike · branch) action machine result (SeenAlike · branch)) :
    Undivided origin home branch action machine :=
  ⟨result, branch, tidy, passes.mono (fun _ => .inl) fun _ => id⟩

/-- An action that only looks. -/
theorem of_looks {action : Action α} (tidy : Tidy branch) (looks : LooksOf action)
    (shows : Shows origin home branch machine.disk) : Undivided origin home branch action machine :=
  .of_still tidy ((Passes.looks looks rfl shows (.refl branch)).mono (fun _ => id)
    fun _ same => same ▸ .refl branch)

/-- What only looks before an action is no part of it. -/
theorem looks_bind {first : Action α} {next : α → Action β} {value : α} (looks : LooksOf first)
    (comes : (machine.eval first).1 = .ok value) (shows : Shows origin home branch machine.disk)
    (undivided : Undivided origin home branch (next value) machine) :
    Undivided origin home branch (first >>= next) machine := by
  obtain ⟨result, last, tidy, passes⟩ := undivided
  exact ⟨result, last, tidy, .looks_bind looks comes shows (.inl (.refl branch)) passes⟩

/-- An action stays undivided when nothing but its result is changed at its end. -/
theorem bind_result {first : Action α} {next : α → Action β}
    (undivided : Undivided origin home branch first machine)
    (ends : ∀ value, ∃ result, next value = Attempt.ofExcept result) :
    Undivided origin home branch (first >>= next) machine := by
  obtain ⟨result, last, tidy, passes⟩ := undivided
  cases result with
  | error failure => exact ⟨.error failure, last, tidy, passes.bind_error⟩
  | ok value =>
      obtain ⟨result, same⟩ := ends value
      refine ⟨result, last, tidy, passes.bind fun after view _ shows held => ?_⟩
      rw [same]
      cases result with
      | ok value => exact .pure value shows (.inr held) held
      | error failure => exact .fail failure shows (.inr held) held

/-- A result that is known goes on at once. -/
theorem ofExcept_bind {next : α → Action β} {value : α}
    (undivided : Undivided origin home branch (next value) machine) :
    Undivided origin home branch (Attempt.ofExcept (.ok value) >>= next) machine := undivided

theorem outcome {action : Action α} (undivided : Undivided origin home branch action machine) :
    Undivided origin home branch action.outcome machine := by
  obtain ⟨result, last, tidy, passes⟩ := undivided
  exact ⟨.ok result, last, tidy, passes.outcome⟩

end Undivided

namespace FileStore

variable {store : FileStore} {origin : Disk} {home : Place}
  (vacant : Vacant origin store.root home) {branch : Branch} (tidy : Tidy branch)
  {machine : Machine} (shows : Shows origin home branch machine.disk)
  (unused : Unused branch machine.names) {name : String} (named : Named name)
include vacant tidy shows named

/-! ## Looking -/

/-- A collection exists when its directory is seen. -/
theorem eval_exists? :
    machine.eval (store.exists? name) = (.ok (branch [name]).isSome, machine) := by
  have plain : ∀ other ∈ [name] ++ ["docs"], Plain other := named.plain_documents
  rw [exists?, documentsPath, partPath_eq vacant.resolved named]
  cases there : branch [name] with
  | none =>
      exact Machine.eval_tryCall_bind machine (congrArg machine.disk.reading
        (shows.status_absent vacant (absent_of_missing there ["docs"]) plain (show 2 ≤ 3 by decide)))
        rfl
  | some entry =>
      have isThere : branch [name] ≠ none := by simp [there]
      obtain ⟨identity, isDirectory⟩ := tidy.part name "docs" named isThere (.inl rfl)
      exact Machine.eval_tryCall_bind machine (congrArg machine.disk.reading
        (shows.status_directory vacant (tidy.leads_collection named isThere) plain
          (show 1 < 3 by decide) isDirectory)) rfl

section

variable {part file : String} (isPart : isPart part) (stored : Stored file)
include isPart stored

omit vacant shows in
/-- A file of a collection can be looked for, whether or not it and its collection are there. -/
theorem absent_or_file :
    branch.Absent ([name, part] ++ [file])
      ∨ branch.Leads [name, part] ∧ ∃ identity content,
        branch ([name, part] ++ [file]) = some (.file identity content) := by
  by_cases there : branch [name] = none
  · exact .inl (absent_of_missing there [part, file])
  · have leads := tidy.leads_part named there isPart
    rcases tidy.file name part file named there isPart stored.seen with missing | ⟨_, isFile⟩
    · exact .inl ⟨[name, part], file, [], rfl, leads, missing⟩
    · exact .inr ⟨leads, isFile⟩

/-- A file is read when it is seen. -/
theorem exists_eval_readDocument : ∃ found : Option String,
    machine.eval (Files.readDocument (store.root.trimmed ++ ([name, part] ++ [file])))
      = (.ok found, machine)
    ∧ (found.isSome → branch [name] ≠ none ∧ branch ([name, part] ++ [file]) ≠ none) := by
  have plain := named.plain_names isPart stored.plain
  rcases absent_or_file tidy named isPart stored with absent | ⟨leads, identity, content, isFile⟩
  · refine ⟨none, Machine.eval_tryCall_bind machine (congrArg machine.disk.reading
      (shows.read_absent vacant absent plain (show 3 ≤ 3 by decide))) rfl, by simp⟩
  · obtain ⟨identity', isDirectory⟩ := leads [name] ⟨[part], rfl⟩ (by simp)
    exact ⟨some content, Machine.eval_tryCall_bind machine (congrArg machine.disk.reading
      (shows.read_file vacant leads plain (show 2 < 3 by decide) isFile)) rfl, fun _ =>
        ⟨by rw [isDirectory]; simp, by rw [isFile]; simp⟩⟩

/-! ## Files -/

/-- **Removing a file** is one call. -/
theorem removeDocument_undivided :
    Undivided origin home branch
      (Files.removeDocument (store.root.trimmed ++ ([name, part] ++ [file]))) machine := by
  have plain := named.plain_names isPart stored.plain
  rcases absent_or_file tidy named isPart stored with absent | ⟨leads, identity, content, isFile⟩
  · exact .of_still tidy (.still_bind shows (.refl branch) (congrArg machine.disk.changing
      (shows.unlink_absent vacant absent plain (show 3 ≤ 3 by decide))) (fun _ => nofun)
      (.pure false shows (.refl branch) (.refl branch)))
  · have gone := SeenAlike.without_file branch
      (show ([name, part] ++ [file]).length = Disk.maxDepth from rfl)
    have removed := shows.without (show [name, part] ++ [file] ≠ [] by simp)
    exact ⟨.ok true, _, tidy.update stored (.inl rfl), .tryCall_bind shows (.inl (.refl branch))
      (congrArg machine.disk.changing
        (shows.unlink_file vacant leads plain (show 2 < 3 by decide) isFile))
      (fun _ partly => nomatch partly) (.pure true removed (.inr gone) gone)⟩

include unused

/-- **A new file** comes to be seen by one call, or nothing is seen to change. -/
theorem createFile_undivided (content : String) :
    Undivided origin home branch
      (store.createFile name (store.root.trimmed ++ ([name, part] ++ [file])) (.ok content))
      machine := by
  have looks : LooksOf (store.exists? name) := Files.looks_isDirectory _
  have comes := congrArg Prod.fst (eval_exists? vacant tidy shows named)
  by_cases there : branch [name] = none
  · rw [there] at comes
    exact .of_still tidy (.bind_error (.looks_bind looks comes shows (.refl branch)
      (.fail _ shows (.refl branch) (.refl branch))))
  rw [Option.isSome_iff_ne_none.mpr there] at comes
  have spot : Spot branch machine.names name part file := ⟨tidy, unused, named, there, isPart, stored⟩
  have required : LooksOf (store.requireCollection name
      (store.root.trimmed ++ ([name, part] ++ [file]))) := .bind looks fun found => by
    cases found
    · exact .fail _
    · exact .pure ()
  have passed : (machine.eval (store.requireCollection name
      (store.root.trimmed ++ ([name, part] ++ [file])))).1 = .ok () := by
    rw [requireCollection, Machine.eval, Attempt.eval_bind_ok
      (eval_exists? vacant tidy shows named), Option.isSome_iff_ne_none.mpr there]
    rfl
  refine .looks_bind required passed shows (.ofExcept_bind (.bind_result (.outcome ?_)
    fun made => ?_))
  · by_cases free : branch ([name, part] ++ [file]) = none
    · exact ⟨_, _, tidy.update stored (.inr ⟨_, _, rfl⟩),
        spot.atomicCreate vacant (fun _ => .inl) shows (fun _ => .inr) free⟩
    · exact .of_still tidy (spot.atomicCreate_taken vacant (fun _ => id) shows free content)
  · cases made with
    | ok => exact ⟨.ok true, rfl⟩
    | error failure =>
        cases failure with
        | fileExists path => exact ⟨.ok false, rfl⟩
        | _ => exact ⟨.error _, rfl⟩

/-- **A replaced file** comes to be seen by one call, or nothing is seen to change. -/
theorem replaceText_undivided (content : String) :
    Undivided origin home branch
      (replaceText (store.root.trimmed ++ ([name, part] ++ [file])) (.ok content)) machine := by
  obtain ⟨found, reads, isThere⟩ := exists_eval_readDocument vacant tidy shows named isPart stored
  refine .looks_bind (Files.looks_readDocument _) (congrArg Prod.fst reads) shows ?_
  cases found with
  | none => exact .of_looks tidy (.pure false) shows
  | some old =>
      obtain ⟨there, taken⟩ := isThere rfl
      have spot : Spot branch machine.names name part file :=
        ⟨tidy, unused, named, there, isPart, stored⟩
      have writes : Undivided origin home branch (Files.atomicWrite
          (store.root.trimmed ++ ([name, part] ++ [file])) content) machine :=
        ⟨_, _, tidy.update stored (.inr ⟨_, _, rfl⟩),
          spot.atomicWrite vacant (fun _ => .inl) shows (fun _ => .inr) taken⟩
      exact writes.bind_result fun _ => ⟨.ok true, rfl⟩

end

end FileStore

/-! ## Collections -/

namespace FileStore

variable {store : FileStore} {origin : Disk} {home : Place}
  (vacant : Vacant origin store.root home) {branch : Branch}
include vacant

/-! ### What is hidden -/

section

variable {hidden : String} (plain : Plain hidden) (isHidden : isHidden hidden = true) {disk : Disk}
  (shows : Shows origin home branch disk)
include plain isHidden shows

/-- While a hidden tree is removed nothing is seen to change. -/
theorem showsSome_of_partly {left : Disk}
    (partly : Disk.Partly disk (.removeTree (store.root.trimmed ++ [hidden])) left) :
    ShowsSome origin home (SeenAlike · branch) left := by
  cases partly with
  | removes located inside =>
      have leads : disk.locateEntry (store.root.trimmed ++ [hidden]) = _ :=
        shows.locateEntry vacant (Branch.leads_nil branch)
          (show ∀ other ∈ [] ++ [hidden], Plain other by simpa using plain) (show 0 < 3 by decide)
      obtain rfl := Except.ok.inj (located.symm.trans leads)
      obtain ⟨left, shows', same⟩ := shows.exists_removed (show [hidden] ≠ [] by simp) inside
      exact ⟨left, shows', .of_unseen (not_seen_of_hidden (by simp) isHidden) same⟩

theorem removeTree_hidden :
    disk.answer (.removeTree (store.root.trimmed ++ [hidden]))
        = (.ok (), disk.without (home ++ [hidden]))
      ∧ ShowsSome origin home (SeenAlike · branch) (disk.without (home ++ [hidden])) :=
  ⟨congrArg disk.changing (shows.removeTree_below vacant (Branch.leads_nil branch)
    (show ∀ other ∈ [] ++ [hidden], Plain other by simpa using plain) (show 0 < 3 by decide)),
    _, shows.without (by simp), .without (not_seen_of_hidden (by simp) isHidden)⟩

end

/-- Removing a hidden tree is not seen. -/
theorem removeTree_bind {hidden : String} (plain : Plain hidden) (isHidden : isHidden hidden = true)
    {machine : Machine} (shows : Shows origin home branch machine.disk) {kind : Branch → Prop}
    (still : ∀ other, SeenAlike other branch → kind other) {α : Type}
    {next : Except Disk.Errno Unit → Action α} {result : Except Failure α} {holds : Branch → Prop}
    (goesOn : ∀ after : Machine, ShowsSome origin home (SeenAlike · branch) after.disk →
      Passes origin home kind (next (.ok ())) after result holds) :
    Passes origin home kind (Host.tryCall (.removeTree (store.root.trimmed ++ [hidden])) >>= next)
      machine result holds := by
  obtain ⟨answers, left⟩ := removeTree_hidden vacant plain isHidden shows
  refine .tryCall_bind shows (still _ (.refl _)) answers (fun left partly => ?_) (goesOn _ left)
  obtain ⟨other, shown, alike⟩ := showsSome_of_partly vacant plain isHidden shows partly
  exact ⟨other, shown, still other alike⟩

/-- Sweeping a hidden tree away is not seen. -/
theorem passes_sweep {hidden : String} (plain : Plain hidden) (isHidden : isHidden hidden = true)
    {machine : Machine} (shows : Shows origin home branch machine.disk) {kind : Branch → Prop}
    (still : ∀ other, SeenAlike other branch → kind other) :
    Passes origin home kind (sweep (store.root.trimmed ++ [hidden])) machine (.ok ())
      (SeenAlike · branch) := by
  obtain ⟨answers, left, shows', alike⟩ := removeTree_hidden vacant plain isHidden shows
  refine .callAs shows (still _ (.refl _)) answers (fun left partly => ?_) shows' (still _ alike) alike
  obtain ⟨other, shown, alike⟩ := showsSome_of_partly vacant plain isHidden shows partly
  exact ⟨other, shown, still other alike⟩

variable {machine : Machine} (shows : Shows origin home branch machine.disk)
include shows

/-! ### Creating -/

/-- A branch with an empty collection that has been prepared under a hidden name, once so many
identities have been given. -/
def prepared (branch : Branch) (given : Nat) (staging : String) : Branch :=
  staged branch staging (given, given + 1, given + 2)

section

variable {staging : String} (plain : Plain staging) (hidden : isHidden staging = true)
  (free : ∀ rest, branch (staging :: rest) = none) {kind : Branch → Prop}
  (still : ∀ other, SeenAlike other branch → kind other)
include plain hidden free still

/-- The directories of a collection are prepared one after another under a hidden name, and none of
them is seen. -/
theorem prepares_bind {α : Type} {next : Action α} {result : Except Failure α}
    {holds : Branch → Prop}
    (goesOn : ∀ after : Machine,
      Shows origin home (prepared branch machine.disk.nextIdentity staging) after.disk →
      kind (prepared branch machine.disk.nextIdentity staging) →
      Passes origin home kind next after result holds) :
    Passes origin home kind (do
      Files.ensureDirectory (Path.child (store.root.trimmed ++ [staging]) "docs")
      Files.ensureDirectory (Path.child (store.root.trimmed ++ [staging]) "constraints")
      next) machine result holds := by
  have unseen (rest : List String) : ¬ Seen (staging :: rest) :=
    not_seen_of_hidden (List.mem_cons_self ..) hidden
  have plainPart {part : String} (isPart : isPart part) :
      ∀ other ∈ [] ++ [staging] ++ [part], Plain other := by
    simp [plain, isPart.stored]
  have top := shows.addDirectory (show [staging] ≠ [] by simp)
  have inside := top.addDirectory (show [staging, "docs"] ≠ [] by simp)
  have whole := inside.addDirectory (show [staging, "constraints"] ≠ [] by simp)
  have alike := SeenAlike.update branch (unseen [])
    (some (.directory machine.disk.nextIdentity))
  have alike' := (SeenAlike.update _ (unseen ["docs"]) (some (.directory
    (machine.disk.nextIdentity + 1)))).trans alike
  have alike'' := (SeenAlike.update _ (unseen ["constraints"]) (some (.directory
    (machine.disk.nextIdentity + 2)))).trans alike'
  have leads : Branch.Leads (Function.update (Function.update branch [staging]
      (some (.directory machine.disk.nextIdentity))) [staging, "docs"]
      (some (.directory (machine.disk.nextIdentity + 1)))) ([] ++ [staging]) :=
    (Branch.leads_nil _).concat (by rw [Function.update_of_ne (by simp)]; exact Function.update_self ..)
  rw [Path.child_concat _ plain.nonempty, Path.child_concat _ plain.nonempty]
  refine .ensureDirectory_bind (by simp) shows (still _ (.refl _))
    (shows.makeDirectories_missing vacant (Branch.leads_nil branch) (plainPart (.inl rfl))
      (show 1 < 3 by decide) (free []) (free ["docs"])) (fun left isBetween => ?_) ?_
  · have between := shows.between_missing vacant (Branch.leads_nil branch) (plainPart (.inl rfl))
      (show 1 < 3 by decide) (free [])
    obtain rfl := List.mem_singleton.mp (between ▸ isBetween)
    exact ⟨_, top, still _ alike⟩
  refine .ensureDirectory_bind (by simp) inside (still _ alike')
    (inside.makeDirectories_free vacant leads (plainPart (.inr rfl)) (show 1 < 3 by decide)
      (by simp [free])) (fun left isBetween => ?_) (goesOn _ whole (still _ alike''))
  have between := inside.between_last vacant leads (plainPart (.inr rfl)) (show 1 < 3 by decide)
  exact absurd (between ▸ isBetween) (by simp)

variable {name : String} (named : Named name)
include named

/-- **A prepared collection** comes to be seen by one call. -/
theorem passes_stage (vacancy : branch [name] = none)
    (commits : kind ((prepared branch machine.disk.nextIdentity staging).relocated [staging] [name])) :
    Passes origin home kind (store.stage name (store.root.trimmed ++ [staging])) machine (.ok true)
      (Eq ((prepared branch machine.disk.nextIdentity staging).relocated [staging] [name])) := by
  have differ : name ≠ staging := Advances.ne_of_named hidden named
  refine prepares_bind vacant shows plain hidden free still fun after whole isKind => ?_
  rw [collectionPath_eq vacant.resolved named]
  have isStaging : prepared branch machine.disk.nextIdentity staging ([] ++ [staging])
      = some (.directory machine.disk.nextIdentity) := by
    simp [prepared, staged]
  have isFree : prepared branch machine.disk.nextIdentity staging ([] ++ [name]) = none :=
    (staged_of_ne differ _ []).trans vacancy
  have located := whole.locateEntry vacant (Branch.leads_nil _)
    (show ∀ other ∈ [] ++ [staging], Plain other by simpa using plain) (show 0 < 3 by decide)
  rw [isStaging] at located
  have renames := whole.rename_free vacant (Branch.leads_nil _)
    (show ∀ other ∈ [] ++ [name], Plain other by simpa using named.plain) (show 0 < 3 by decide)
    located isFree (apart differ.symm) (apart differ)
  have moved := whole.relocate (show [staging] ≠ [] by simp) (show [name] ≠ [] by simp)
    (apart differ.symm) (apart differ)
  exact .tryCall_bind whole isKind (congrArg after.disk.changing renames)
    (fun _ partly => by cases partly) (.pure true moved commits rfl)

end

variable (tidy : Tidy branch) (unused : Unused branch machine.names) {name : String}
  (named : Named name)
include tidy unused named

omit vacant shows unused in
/-- With a new collection that has been prepared under a hidden name everything stays tidy. -/
theorem tidy_created {staging : String} (hidden : isHidden staging = true)
    (free : ∀ rest, branch (staging :: rest) = none) (given : Nat) :
    Tidy ((prepared branch given staging).relocated [staging] [name]) := by
  refine tidy.of_collection named (fun other rest seen differ => ?_) (.inr ⟨⟨given, ?_⟩,
    fun part isPart => ⟨?_, fun file => ?_⟩⟩)
  · have notStaging : other ≠ staging := by
      rintro rfl
      exact not_seen_of_hidden (List.mem_cons_self ..) hidden seen
    rw [Branch.relocated_singleton, if_neg differ, if_neg notStaging]
    exact staged_of_ne notStaging _ rest
  · rw [Branch.relocated_singleton, if_pos rfl]
    simp [prepared, staged]
  · rw [Branch.relocated_singleton, if_pos rfl]
    rcases isPart with rfl | rfl
    · exact ⟨given + 1, by simp [prepared, staged]⟩
    · exact ⟨given + 2, by simp [prepared, staged]⟩
  · rw [Branch.relocated_singleton, if_pos rfl]
    simp [prepared, staged, free]

/-- A collection that is not there comes to be seen by one call. -/
theorem staged_undivided (vacancy : branch [name] = none) :
    Undivided origin home branch (Host.ask .freshName >>= fun fresh =>
      (store.stage name (store.root.child (".staging-" ++ fresh))).andFinally
        (sweep (store.root.child (".staging-" ++ fresh)))) machine := by
  have isMarked : ".staging-" ++ Machine.freshName machine.names ∈ marked machine.names := .inl rfl
  have hidden := isHidden_of_mem_marked isMarked
  have free := unused.marked _ isMarked
  have plain := Files.mark_staging.plain machine.names
  have drawn : Shows origin home branch { machine with names := machine.names + 1 }.disk := shows
  refine ⟨.ok true, _, tidy_created tidy named hidden free machine.disk.nextIdentity,
    .freshName_bind shows (.inl (.refl _)) (.andFinally (passes_stage vacant drawn plain hidden free
      (fun _ => .inl) named vacancy (.inr (.refl _))) fun after view _ shows' same => ?_)⟩
  subst same
  exact passes_sweep vacant plain hidden shows' fun _ => .inr

/-- **Creating a collection** shows it by one call, if it is not there yet. -/
theorem create_undivided : Undivided origin home branch (store.create name) machine := by
  have looks : LooksOf (store.exists? name) := Files.looks_isDirectory _
  have comes := congrArg Prod.fst (eval_exists? vacant tidy shows named)
  by_cases there : branch [name] = none
  · obtain ⟨result, last, tidy', passes⟩ :=
      staged_undivided vacant shows tidy unused named there
    rw [there] at comes
    refine .looks_bind looks comes shows ⟨result, last, tidy', .ensureDirectory_bind
      vacant.resolved.nonempty shows (.inl (.refl _)) (shows.makeDirectories_root vacant)
      (fun left isBetween => ?_) passes⟩
    exact absurd (shows.between_root vacant ▸ isBetween) (by simp)
  · rw [Option.isSome_iff_ne_none.mpr there] at comes
    exact .looks_bind looks comes shows (.of_looks tidy (.pure false) shows)

/-! ### Dropping -/

omit vacant shows unused in
/-- When a collection has gone to a hidden name everything stays tidy. -/
theorem tidy_dropped {trash : String} (hidden : isHidden trash = true) :
    Tidy (branch.relocated [name] [trash]) := by
  have differ : name ≠ trash := Advances.ne_of_named hidden named
  refine tidy.of_collection named (fun other rest seen notName => ?_) (.inl ?_)
  · have notTrash : other ≠ trash := by
      rintro rfl
      exact not_seen_of_hidden (List.mem_cons_self ..) hidden seen
    rw [Branch.relocated_singleton, if_neg notTrash, if_neg notName]
  · rw [Branch.relocated_singleton, if_neg differ, if_pos rfl]

/-- **Dropping a collection** shows it by one call, if it is there. -/
theorem drop_undivided : Undivided origin home branch (store.drop name) machine := by
  have isMarked : ".trash-" ++ Machine.freshName machine.names ∈ marked machine.names := .inr rfl
  have hidden := isHidden_of_mem_marked isMarked
  have free := unused.marked _ isMarked []
  have plain := Files.mark_trash.plain machine.names
  have differ : name ≠ ".trash-" ++ Machine.freshName machine.names :=
    Advances.ne_of_named hidden named
  have plainName : ∀ other ∈ [] ++ [name], Plain other := by simpa using named.plain
  have plainTrash : ∀ other ∈ [] ++ [".trash-" ++ Machine.freshName machine.names], Plain other := by
    simpa using plain
  unfold drop
  rw [collectionPath_eq vacant.resolved named]
  by_cases there : branch [name] = none
  · have target := shows.locateEntry vacant (Branch.leads_nil branch) plainTrash
      (show 0 < 3 by decide)
    exact .of_still tidy (.freshName_bind shows (.refl _) (.still_bind shows (.refl _)
      (congrArg machine.disk.changing (shows.rename_absent vacant (absent_of_missing there [])
        plainName (show 1 ≤ 3 by decide) target)) (fun _ => nofun)
      (.pure false shows (.refl _) (.refl _))))
  · obtain ⟨identity, isDirectory⟩ := tidy.directory named there
    have located := shows.locateEntry vacant (Branch.leads_nil branch) plainName
      (show 0 < 3 by decide)
    rw [List.nil_append, isDirectory] at located
    have moved := shows.relocate (show [name] ≠ [] by simp)
      (show [".trash-" ++ Machine.freshName machine.names] ≠ [] by simp) (apart differ)
      (apart differ.symm)
    have renames := shows.rename_free vacant (Branch.leads_nil branch) plainTrash
      (show 0 < 3 by decide) located free (apart differ) (apart differ.symm)
    refine ⟨.ok true, _, tidy_dropped tidy named hidden, .freshName_bind shows (.inl (.refl _))
      (.tryCall_bind shows (.inl (.refl _)) (congrArg machine.disk.changing renames)
        (fun _ partly => nomatch partly) (removeTree_bind vacant plain hidden moved (fun _ => .inr)
          fun after left => ?_))⟩
    obtain ⟨view, shows', alike⟩ := left
    exact .pure true shows' (.inr alike) alike

/-! ## Operations -/

/-- **An operation that is interrupted** is seen not to have begun, or to be over. -/
theorem undivided {op : Storage.Op .json} (alters : op.Alters name) :
    Undivided origin home branch (store.perform op) machine := by
  have document (id : String) : store.documentPath name id
      = store.root.trimmed ++ ([name, "docs"] ++ [keyName id]) := documentPath_eq vacant named id
  have check (key : String) : store.checkPath name key
      = store.root.trimmed ++ ([name, "constraints"] ++ [keyName key]) := checkPath_eq vacant named key
  have stored := Files.stored_keyName
  cases alters with
  | create => exact create_undivided vacant shows tidy unused named
  | drop => exact drop_undivided vacant shows tidy unused named
  | put id value =>
      simp only [perform, putText, document]
      refine .bind_result (createFile_undivided vacant tidy shows unused named (.inl rfl) (stored id)
        _) fun made => ?_
      cases made
      · exact ⟨.error _, rfl⟩
      · exact ⟨.ok (), rfl⟩
  | replace id value =>
      simp only [perform, document]
      exact replaceText_undivided vacant tidy shows unused named (.inl rfl) (stored id) _
  | deleteById id =>
      simp only [perform, document]
      exact removeDocument_undivided vacant tidy shows named (.inl rfl) (stored id)
  | addCheck key value =>
      simp only [perform, check]
      exact createFile_undivided vacant tidy shows unused named (.inr rfl) (stored key) _
  | dropCheck key =>
      simp only [perform, check]
      exact removeDocument_undivided vacant tidy shows named (.inr rfl) (stored key)

end FileStore

end DocStore
