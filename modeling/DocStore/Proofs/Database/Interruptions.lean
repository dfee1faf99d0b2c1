import DocStore.Proofs.Database.Beginnings
import DocStore.Proofs.Files.Reading
/-!
# Storages that are found after an interruption

A storage in files is in order when its root is yet to be made, or when below it nothing but
collections and their files is seen; what is hidden does not matter, so that it may hold what
earlier interruptions have left (`FileStore.InOrder`).  However an operation on such a storage is
interrupted, whoever opens it afterwards finds it as if the operation had not begun, or as if it
were over (`FileStore.readAlike_of_interrupted`).

Where the root is missing, all operations but the creation of a collection leave everything as it is
(`FileStore.passes_unmade`), and while the root is being made there is nothing to be read yet.  With
the root made the creation goes on as below every other root.
-/

set_option autoImplicit false

namespace DocStore

open Disk (Branch Path Place Plain Shows Unmade Vacant)
open Files (Named Stored keyName)
open Database (ada newSession newStore)
open Host (Action Interrupted Machine Passes ShowsSome TellsAlike)

namespace FileStore

/-! ## Who reads -/

/-- What is read depends on the root alone. -/
theorem perform_eq_of_root {store reader : FileStore} (sameRoot : reader.root = store.root)
    {op : Storage.Op .json} (reads : op.Reads) : reader.perform op = store.perform op := by
  obtain ⟨root, layout, timeout, retry, logger⟩ := reader
  obtain rfl : root = store.root := sameRoot
  cases op with
  | «exists» | collections | get | scan | checks => rfl
  | create | drop | put | replace | deleteMatching | deleteById | addCheck | dropCheck | close =>
      exact reads.elim

/-- Whoever opens a storage at a root finds the same with one disk and with another one, whatever is
read. -/
def ReadAlike (root : Path) (disk disk' : Disk) : Prop :=
  ∀ (reader : FileStore) (op : Storage.Op .json), reader.root = root → op.Reads → op.Fits →
    ∀ first second : Machine, first.disk = disk → second.disk = disk' →
      TellsAlike first second (reader.perform op)

/-! ## Roots that are yet to be made -/

section

variable {root : Path} {home : Place} {disk disk' : Disk}

/-- Nothing is read where the root is missing. -/
theorem readAlike_unmade {home' : Place} (unmade : Unmade disk root home)
    (unmade' : Unmade disk' root home') : ReadAlike root disk disk' := by
  rintro reader op rfl reads fits first second rfl rfl
  exact ⟨_, reads_unmade unmade reads fits, reads_unmade unmade' reads fits⟩

/-- Where the same is seen the same is read. -/
theorem readAlike_of_seenAlike {origin : Disk} (vacant : Vacant origin root home)
    {branch branch' : Branch} (tidy : Tidy branch) (alike : SeenAlike branch' branch)
    (shows : Shows origin home branch disk) (shows' : Shows origin home branch' disk') :
    ReadAlike root disk' disk := by
  rintro reader op rfl reads fits second first rfl rfl
  obtain ⟨result, told, told'⟩ := tellsAlike vacant tidy alike shows shows' reads fits
  exact ⟨result, told', told⟩

/-- Nobody tells a root that is yet to be made from one below which nothing is seen. -/
theorem readAlike_nothing (unmade : Unmade disk root home) {made : Disk}
    (vacant : Vacant made root home) {branch : Branch} (nothing : SeenAlike branch fun _ => none)
    (shows : Shows made home branch disk') : ReadAlike root disk' disk := by
  rintro reader op isRoot reads fits second first rfl rfl
  -- layouts do not matter to who reads, and so the storage may have one that is blank
  obtain ⟨layout, blank⟩ : ∃ layout : Json.Layout, layout.Blank :=
    ⟨_, Json.Layout.blank_ofNumber defaultIndent⟩
  obtain ⟨store, rfl, blank⟩ : ∃ store : FileStore, store.root = root ∧ store.layout.Blank :=
    ⟨{ reader with layout }, isRoot, blank⟩
  rw [perform_eq_of_root isRoot reads]
  have shows₀ : Shows made home (fun _ => none) { first with disk := made }.disk := vacant.shows
  obtain ⟨result, told, told'⟩ := tellsAlike vacant tidy_nothing nothing shows₀ shows reads fits
  have empty := (serves vacant (keeps_empty (Set.mem_singleton _)) (Set.mem_singleton store.layout)
    (fun _ same => Set.mem_singleton_iff.mp same ▸ blank) fits op.within_univ).attempt_eq shows₀
  have found := reads_unmade unmade reads fits
  rw [← empty, Machine.attempt_eq_eval, told] at found
  exact ⟨result, told', found⟩

end

section

variable {store : FileStore} {home : Place} {machine : Machine}
  (unmade : Unmade machine.disk store.root home) {name : String} (named : Named name)
include unmade named

theorem eval_exists?_unmade : machine.eval (store.exists? name) = (.ok false, machine) :=
  reads_unmade unmade (show (Storage.Op.exists name).Reads from trivial) named

/-- Where the root is missing, all operations but the creation of a collection leave everything as
it is. -/
theorem passes_unmade {op : Storage.Op .json} (alters : op.Alters name) (other : op ≠ .create name) :
    ∃ result, Passes machine.disk home (Eq fun _ => none) (store.perform op) machine result
      (Eq fun _ => none) := by
  have shows := unmade.shows
  have resolved := unmade.resolved
  have plain {part : String} (isPart : isPart part) (key : String) :
      ∀ other ∈ [name, part] ++ [keyName key], Plain other :=
    named.plain_names isPart (Files.stored_keyName key).plain
  have missing := eval_exists?_unmade unmade named
  have creates (path : Path) (content : String) : ∃ failure,
      Passes machine.disk home (Eq fun _ => none) (store.createFile name path (.ok content)) machine
        (.error failure) (Eq fun _ => none) :=
    ⟨_, .bind_error (.looks_bind (Files.looks_isDirectory _) (congrArg Prod.fst missing) shows rfl
      (.fail _ shows rfl rfl))⟩
  have removes {part : String} (isPart : isPart part) (key : String) :
      Passes machine.disk home (Eq fun _ => none)
        (Files.removeDocument (((store.collectionPath name).child part).child (keyName key)))
        machine (.ok false) (Eq fun _ => none) := by
    rw [filePath_eq resolved named isPart]
    exact .still_bind shows rfl (congrArg machine.disk.changing
      (unmade.unlink (plain isPart key) (show 3 ≤ 3 by decide) (by simp))) (fun _ => nofun)
      (.pure false shows rfl rfl)
  cases alters with
  | create => exact absurd rfl other
  | drop =>
      have renames := unmade.rename (show ∀ other ∈ [name], Plain other by simpa using named.plain)
        (show 1 ≤ 3 by decide) (by simp)
      rw [← collectionPath_eq resolved named] at renames
      exact ⟨_, .freshName_bind shows rfl (.still_bind shows rfl
        (congrArg machine.disk.changing (renames _)) (fun _ => nofun) (.pure false shows rfl rfl))⟩
  | put id document =>
      obtain ⟨failure, passes⟩ := creates (store.documentPath name id) (store.documentText document)
      exact ⟨_, .bind_error passes⟩
  | replace id document =>
      have reads : machine.eval (Files.readDocument (store.documentPath name id))
          = (.ok none, machine) := by
        rw [documentPath, documentsPath, filePath_eq resolved named (.inl rfl)]
        exact Machine.eval_tryCall_bind machine (congrArg machine.disk.reading
          (unmade.read (plain (.inl rfl) id) (show 3 ≤ 3 by decide))) rfl
      exact ⟨_, .looks_bind (Files.looks_readDocument _) (congrArg Prod.fst reads) shows rfl
        (.pure false shows rfl rfl)⟩
  | deleteById id => exact ⟨_, removes (.inl rfl) id⟩
  | addCheck key check =>
      obtain ⟨failure, passes⟩ := creates (store.checkPath name key) (store.checkText ⟨key, check⟩)
      exact ⟨_, passes⟩
  | dropCheck key => exact ⟨_, removes (.inr rfl) key⟩

end

/-! ## Storages in order -/

/-- A storage in files is in order on a machine: its root is yet to be made, or below it nothing but
collections and their files is seen, and the next fresh name is not in use. -/
inductive InOrder (store : FileStore) (machine : Machine) : Prop
  | unmade {home : Place} (unmade : Unmade machine.disk store.root home)
  | made {origin : Disk} {home : Place} {branch : Branch} (vacant : Vacant origin store.root home)
      (shows : Shows origin home branch machine.disk) (tidy : Tidy branch)
      (unused : Unused branch machine.names)

end FileStore

namespace Database.Session

variable {session : Session} {generator : Nat → Identifier.Generated} {keeper : Keeper}
  {machine : Machine} {store : FileStore} (isFiles : session.backend = .files store)
include isFiles

theorem Stands.inOrder {state : Cabinet × Nat}
    (stands : session.Stands generator keeper state machine) : store.InOrder machine := by
  cases stands with
  | memory backend => exact nomatch backend.symm.trans isFiles
  | files backend _ vacant rests =>
      obtain rfl := Backend.files.inj (backend.symm.trans isFiles)
      obtain ⟨branch, _, _, shows, keeps⟩ := rests.below
      exact .made vacant shows keeps.tidy (keeps.unused _)
  | unmade backend _ unmade =>
      obtain rfl := Backend.files.inj (backend.symm.trans isFiles)
      exact .unmade unmade

/-- **Whatever operations a database has carried out**, its storage is in order. -/
theorem Begins.inOrder (begins : session.Begins machine keeper)
    {operations : List Operation} (distinct : ∀ operation ∈ operations, operation.Distinct) :
    store.InOrder (session.after machine operations) :=
  (begins.after distinct).inOrder isFiles

end Database.Session

namespace FileStore

/-! ## Interruptions -/

/-- The disk when the drop of a collection has moved it away and has removed nothing of it yet. -/
def movedAway (store : FileStore) (name : String) (machine : Machine) : Disk :=
  (machine.disk.answer (.rename (store.collectionPath name)
    (store.root.child (".trash-" ++ Machine.freshName machine.names)))).2

theorem interrupted_drop (store : FileStore) (name : String) (machine : Machine) :
    Interrupted (store.perform (.drop name)).toProgram machine (movedAway store name machine) :=
  .later (.later (.stop _ _))

section

variable {store : FileStore} {machine : Machine} {disk : Disk}

/-- What is left of an interrupted action shows what was seen before it, or it reads like what all
of the action leaves. -/
theorem showsSome_or_readAlike {origin : Disk} {home : Place}
    (vacant : Vacant origin store.root home) {branch : Branch} {α : Type} {action : Action α}
    (undivided : Undivided origin home branch action machine)
    (interrupted : Interrupted action.toProgram machine disk) :
    ShowsSome origin home (SeenAlike · branch) disk
      ∨ ReadAlike store.root disk (machine.eval action).2.disk := by
  obtain ⟨result, last, tidy, passes⟩ := undivided
  obtain ⟨after, view, run, _, shows, held⟩ := passes.yields
  obtain ⟨left, shows', before | ended⟩ := passes.through disk interrupted
  · exact .inl ⟨left, shows', before⟩
  · rw [run]
    exact .inr (readAlike_of_seenAlike vacant (tidy.congr held) (ended.trans held.symm) shows shows')

section

variable {path : Path} (nonempty : path ≠ []) {made : Disk}
  (makes : machine.disk.makeDirectories path = (.ok none, made))
include nonempty makes

theorem eval_ensureDirectory :
    machine.eval (Files.ensureDirectory path) = (.ok (), { machine with disk := made }) := by
  have step : machine.eval (Host.tryCall (.makeDirectories path))
      = (.ok (.ok none), { machine with disk := made }) := by
    rw [Machine.eval_tryCall, Disk.answer, makes]
  rw [Files.ensureDirectory, if_neg nonempty, Host.makeDirectories, Machine.eval,
    Attempt.eval_bind_ok step]
  rfl

/-- While a directory is being made with all that are missing above it, none of these is there yet,
or some are, or all. -/
theorem interrupted_ensureDirectory
    (interrupted : Interrupted (Files.ensureDirectory path).toProgram machine disk) :
    disk = machine.disk ∨ disk ∈ machine.disk.between path.reverse ∨ disk = made := by
  rw [Files.ensureDirectory, if_neg nonempty, Host.makeDirectories] at interrupted
  cases show Interrupted (.ask (.disk (.makeDirectories path)) fun answer =>
    ExceptT.bindCont _ (.ok answer)) machine disk from interrupted with
  | stop => exact .inl rfl
  | midst partly =>
      cases partly with
      | makes _ isBetween => exact .inr (.inl isBetween)
  | later ended =>
      rw [Machine.answer, Disk.answer, makes] at ended
      exact .inr (.inr ended.done_inv)

end

variable {name : String} (named : Named name)
include named

/-- Wherever creating a collection is interrupted while the root is missing, the root is missing
still, or the creation has gone on below a root that is empty yet. -/
theorem create_unmade {home : Place} (unmade : Unmade machine.disk store.root home)
    (interrupted : Interrupted (store.perform (.create name)).toProgram machine disk) :
    ReadAlike store.root disk machine.disk
      ∨ ReadAlike store.root disk (machine.eval (store.perform (.create name))).2.disk := by
  have creating : Interrupted (store.create name).toProgram machine disk := interrupted
  obtain ⟨made, makes, vacant, _, _⟩ := unmade.exists_vacant
  have nonempty := unmade.resolved.nonempty
  have missing := eval_exists?_unmade unmade named
  have hasRoot := eval_ensureDirectory nonempty makes
  have shows : Shows made home (fun _ => none) { machine with disk := made }.disk := vacant.shows
  have undivided := staged_undivided vacant shows tidy_nothing (unused_nothing _) named rfl
  have ends : machine.eval (store.perform (.create name)) = _ :=
    (Attempt.eval_bind_ok missing).trans (Attempt.eval_bind_ok hasRoot)
  rcases creating.bind_inv_ok missing with inLook | inRest
  · rw [inLook.of_looks (Files.looks_isDirectory _)]
    exact .inl (readAlike_unmade unmade unmade)
  have staging : Interrupted (Files.ensureDirectory store.root >>= fun _ => Host.ask .freshName >>=
      fun fresh => (store.stage name (store.root.child (".staging-" ++ fresh))).andFinally
        (sweep (store.root.child (".staging-" ++ fresh)))).toProgram machine disk := inRest
  rcases staging.bind_inv_ok hasRoot with inMaking | inStaging
  · rcases interrupted_ensureDirectory nonempty makes inMaking with rfl | isBetween | rfl
    · exact .inl (readAlike_unmade unmade unmade)
    · exact .inl (readAlike_unmade (unmade.between isBetween) unmade)
    · exact .inl (readAlike_nothing unmade vacant (.refl _) vacant.shows)
  · rcases showsSome_or_readAlike vacant undivided inStaging with ⟨left, shows, nothing⟩ | ended
    · exact .inl (readAlike_nothing unmade vacant nothing shows)
    · rw [ends]
      exact .inr ended

/-- **However an operation is interrupted**, whoever opens the storage afterwards finds it as if the
operation had not begun, or as if it were over. -/
theorem readAlike_of_interrupted (inOrder : store.InOrder machine) {op : Storage.Op .json}
    (alters : op.Alters name) (interrupted : Interrupted (store.perform op).toProgram machine disk) :
    ReadAlike store.root disk machine.disk
      ∨ ReadAlike store.root disk (machine.attempt (store.perform op)).2.disk := by
  rw [Machine.attempt_eq_eval]
  cases inOrder with
  | unmade unmade =>
      by_cases isCreate : op = .create name
      · subst isCreate
        exact create_unmade named unmade interrupted
      · obtain ⟨result, passes⟩ := passes_unmade unmade named alters isCreate
        obtain ⟨left, shows, rfl⟩ := passes.through disk interrupted
        exact .inl (readAlike_unmade (unmade.of_shows shows) unmade)
  | made vacant shows tidy unused =>
      refine (showsSome_or_readAlike vacant (undivided vacant shows tidy unused named alters)
        interrupted).imp (fun left => ?_) id
      obtain ⟨view, shows', alike⟩ := left
      exact readAlike_of_seenAlike vacant tidy alike shows shows'

end

/-- A machine on which a document has been inserted into a collection. -/
def adaMachine : Machine :=
  newSession.after Machine.start [.insert (.ofString "users") ada]

/-- A collection is found as it was or not at all when dropping it is interrupted half-way. -/
theorem users_found_as_before_or_dropped :
    newStore.InOrder adaMachine ∧ Named "users"
      ∧ Storage.Op.Alters "users" (.drop "users")
      ∧ Interrupted (newStore.perform (.drop "users")).toProgram adaMachine
        (movedAway newStore "users" adaMachine)
      ∧ (ReadAlike newStore.root (movedAway newStore "users" adaMachine) adaMachine.disk
        ∨ ReadAlike newStore.root (movedAway newStore "users" adaMachine)
          (adaMachine.attempt (newStore.perform (.drop "users"))).2.disk) := by
  have distinct : ∀ operation ∈ [Database.Operation.insert (.ofString "users") ada],
      operation.Distinct := by
    simpa [Database.Operation.Distinct] using Database.distinct_ada
  have inOrder : newStore.InOrder adaMachine := Database.begins_start.inOrder rfl distinct
  have named : Named "users" := Files.named_of_nameFault? (by decide)
  have interrupted := interrupted_drop newStore "users" adaMachine
  exact ⟨inOrder, named, .drop, interrupted,
    readAlike_of_interrupted named inOrder .drop interrupted⟩

end FileStore

end DocStore
