import DocStore.Proofs.Files.Contended
import DocStore.Proofs.Host.Faults
/-!
# What a write leaves that fails

A file is written under a temporary name beside its place.  Some of the calls that are made on the
way may fail, although the disk would let them succeed; `Machine.failing` runs a program alone over
any such failures.  `Leaving` says what lies in the directory when a write has ended: at the place
nothing has changed if the write has failed, and the temporary file is gone, unless the write is
spoiled (`Spoiled`).  That is when the temporary file has been opened and not all of the content has
been brought to the device and closed: its name is passed on only with a file that is complete, so
nobody removes it then.

`atomicWrite_leaves` and `atomicCreate_leaves` say so for any failures but those of a removal, and
`spoiled_only_iff` says of a single call when its failure spoils the write.
-/

set_option autoImplicit false

namespace DocStore

namespace Host

namespace Machine

/-- Answer a request while some calls on the disk meet with faults. -/
def failing (faults : Disk.Call → Option Fault) :
    (request : Request) → Machine → request.Answer × Machine
  | .disk call, machine =>
      match faults call with
      | some fault =>
          (.error fault.errno, { machine with disk := fault.leaves call machine.disk })
      | none => answer (.disk call) machine
  | request, machine => answer request machine

/-- What comes of an action while some calls meet with faults. -/
abbrev evalFailing {α : Type} (faults : Disk.Call → Option Fault) (action : Action α)
    (machine : Machine) : Except Failure α × Machine :=
  Attempt.eval (failing faults) action machine

variable {faults : Disk.Call → Option Fault} {call : Disk.Call} (machine : Machine)

theorem evalFailing_tryCall :
    machine.evalFailing faults (tryCall call)
      = (.ok (failing faults (.disk call) machine).1,
        (failing faults (.disk call) machine).2) := rfl

theorem evalFailing_fault {fault : Fault} (meets : faults call = some fault) :
    machine.evalFailing faults (tryCall call)
      = (.ok (.error fault.errno), { machine with disk := fault.leaves call machine.disk }) := by
  rw [evalFailing_tryCall, failing, meets]

/-- A call that meets with no fault does what it does on the disk. -/
theorem evalFailing_call (spared : faults call = none) :
    machine.evalFailing faults (tryCall call)
      = (.ok (machine.disk.answer call).1,
        { machine with disk := (machine.disk.answer call).2 }) := by
  rw [evalFailing_tryCall, failing, spared]
  rfl

end Machine

end Host

namespace Files

open Disk (Call Path)
open Host (Action Machine ask tryCall)

/-! ## Filling a temporary file -/

/-- What follows when a content has been written under a temporary name that is to be moved. -/
def move (target temporary : Path) : Except Disk.Errno Unit → Action Unit
  | .error errno => Attempt.fail (.ofCall (.write target.text) errno)
  | .ok () => do
      match ← tryCall (.rename temporary target) with
      | .ok () => syncEntries target.parent
      | .error errno => do
          discard temporary
          Attempt.fail (.ofCall (.write target.text) errno)

/-- A file is written under a temporary name that is drawn for it, and something follows. -/
def stage (target : Path) (content : String)
    (finish : Path → Except Disk.Errno Unit → Action Unit) : Action Unit := do
  let temporary := temporaryPath target (← ask .freshName)
  writeTemporary temporary content >>= finish temporary

theorem atomicWrite_eq (target : Path) (content : String) :
    atomicWrite target content
      = ensureDirectory target.parent >>= fun _ => stage target content (move target) := rfl

theorem atomicCreate_eq (target : Path) (content : String) :
    atomicCreate target content
      = ensureDirectory target.parent >>= fun _ => stage target content (link target) := rfl

/-- A content cannot be brought to the device: neither alone nor with the whole file, where that is
tried. -/
def Unflushed (faults : Call → Option Host.Fault) (handle : Nat) : Prop :=
  ∃ fault, faults (.syncContent handle) = some fault
    ∧ (needsFullSync fault.errno = false ∨ (faults (.syncFile handle)).isSome)

/-- A content cannot be written, brought to the device and closed. -/
def Unfilled (faults : Call → Option Host.Fault) (handle : Nat) (content : String) : Prop :=
  (faults (.write handle content)).isSome ∨ Unflushed faults handle
    ∨ (faults (.close handle)).isSome

section

variable (faults : Call → Option Host.Fault) (machine : Machine) (handle : Nat)

/-- A content is brought to the device, unless that fails, and nothing else happens. -/
theorem evalFailing_flush :
    ∃ flushed, machine.evalFailing faults (flush handle) = (.ok flushed, machine)
      ∧ (flushed = .ok () ↔ ¬ Unflushed faults handle) := by
  cases meets : faults (.syncContent handle) with
  | none =>
      refine ⟨.ok (), Attempt.eval_bind_ok (machine.evalFailing_call meets), ?_⟩
      simp [Unflushed, meets]
  | some fault =>
      have tries := machine.evalFailing_fault meets
      by_cases full : needsFullSync fault.errno = true
      · cases meetsToo : faults (.syncFile handle) with
        | none =>
            refine ⟨.ok (), (Attempt.eval_bind_ok tries).trans ?_, ?_⟩
            · dsimp only
              rw [if_pos full]
              exact machine.evalFailing_call meetsToo
            · simp [Unflushed, meets, meetsToo, full]
        | some other =>
            refine ⟨.error other.errno, (Attempt.eval_bind_ok tries).trans ?_, ?_⟩
            · dsimp only
              rw [if_pos full]
              exact machine.evalFailing_fault meetsToo
            · simp [Unflushed, meets, meetsToo]
      · refine ⟨.error fault.errno, (Attempt.eval_bind_ok tries).trans ?_, ?_⟩
        · dsimp only
          rw [if_neg full]
          rfl
        · simpa [Unflushed, meets] using fun isFull => absurd isFull full

/-- What is written to a file is the whole content, or what a fault leaves of it. -/
theorem evalFailing_write (content : String) :
    ∃ written disk, machine.evalFailing faults (tryCall (.write handle content))
        = (.ok written, { machine with disk })
      ∧ (disk = machine.disk ∨ ∃ part, disk = machine.disk.setContent handle part)
      ∧ (written = .ok () ↔ faults (.write handle content) = none) := by
  cases meets : faults (.write handle content) with
  | none => exact ⟨_, _, machine.evalFailing_call meets, .inr ⟨content, rfl⟩, by simp [Disk.answer]⟩
  | some fault =>
      refine ⟨_, _, machine.evalFailing_fault meets, ?_, by simp⟩
      unfold Host.Fault.leaves
      split
      next part _ isWrite _ =>
        cases isWrite
        exact .inr ⟨_, rfl⟩
      next => exact .inl rfl

/-- A file that is filled has some content then, which is complete unless that fails. -/
theorem evalFailing_fill (content : String) :
    ∃ filled disk, machine.evalFailing faults (fill handle content)
        = (.ok filled, { machine with disk })
      ∧ (disk = machine.disk ∨ ∃ part, disk = machine.disk.setContent handle part)
      ∧ (filled = .ok () ↔ faults (.write handle content) = none ∧ ¬ Unflushed faults handle) := by
  obtain ⟨written, disk, writes, isDisk, isWritten⟩ :=
    evalFailing_write faults machine handle content
  cases written with
  | error errno =>
      exact ⟨.error errno, disk, Attempt.eval_bind_ok writes, isDisk, by simp [← isWritten]⟩
  | ok =>
      obtain ⟨flushed, flushes, isFlushed⟩ := evalFailing_flush faults { machine with disk } handle
      exact ⟨flushed, disk, (Attempt.eval_bind_ok writes).trans flushes, isDisk, by
        simp [← isWritten, isFlushed]⟩

/-- A file is closed, and what has come of filling it is passed on unless that fails. -/
theorem evalFailing_close (filled : Except Disk.Errno Unit) :
    ∃ closed, machine.evalFailing faults (close handle filled) = (.ok closed, machine)
      ∧ (closed = .ok () ↔ filled = .ok () ∧ faults (.close handle) = none) := by
  cases meets : faults (.close handle) with
  | none =>
      exact ⟨filled, Attempt.eval_bind_ok (machine.evalFailing_call meets), by simp⟩
  | some fault =>
      exact ⟨.error fault.errno, Attempt.eval_bind_ok (machine.evalFailing_fault meets), by simp⟩

omit handle in
/-- Bringing the entries of a directory to the device always goes on and changes nothing. -/
theorem evalFailing_syncEntries (directory : Path) :
    machine.evalFailing faults (syncEntries directory) = (.ok (), machine) := by
  cases meets : faults (.syncDirectory directory) with
  | none => exact Attempt.eval_bind_ok (machine.evalFailing_call meets)
  | some fault => exact Attempt.eval_bind_ok (machine.evalFailing_fault meets)

end

end Files

/-! ## Moving a file within a directory -/

namespace Disk.Folder

variable {origin : Disk} {home : Place} {files : String → Option Entry} {disk : Disk}
  (folder : Folder origin home files disk)
include folder

/-- A new file takes the place of whatever is not a directory. -/
theorem rename {directory : Path} (standing : Standing origin directory home) {source name : String}
    (plainSource : Plain source) (isPathSource : checkPath (directory.trimmed ++ [source]) = .ok ())
    (plain : Plain name) (isPath : checkPath (directory.trimmed ++ [name]) = .ok ())
    {identity : Nat} {content : String} (isFile : files source = some (.file identity content))
    (alone : Files.Alone files source identity) (differs : source ≠ name) :
    disk.rename (directory.trimmed ++ [source]) (directory.trimmed ++ [name])
      = if (files name).any Entry.isDirectory then .error .isDirectory
        else .ok (disk.relocate (home ++ [source]) (home ++ [name])) := by
  have otherPlace : home ++ [source] ≠ home ++ [name] := by simpa using differs
  unfold Disk.rename
  rw [folder.locateEntry standing plainSource isPathSource, isFile]
  simp only [bind, Except.bind]
  rw [folder.locateEntry standing plain isPath]
  cases found : files name with
  | none => simp [renameEntry, otherPlace, Entry.isDirectory]
  | some entry =>
      have otherEntry : entry ≠ .file identity content := by
        rintro rfl
        exact differs (alone name _ found rfl).symm
      cases entry <;> simp_all [renameEntry, Entry.isDirectory]

theorem filesAt_relocate {source name : String} (differs : source ≠ name) (other : String) :
    (disk.relocate (home ++ [source]) (home ++ [name])).filesAt home other
      = if other = name then files source else if other = source then none else files other := by
  have single (first second : String) :
      below (home ++ [first]) (home ++ [second]) = (first == second) := by
    rw [below_append_append, Branch.below_singleton]
  rw [filesAt, entry?_relocate folder.sound (by simp) (by simp)
    (by rw [single]; exact beq_eq_false_iff_ne.mpr differs)
    (by rw [single]; exact beq_eq_false_iff_ne.mpr differs.symm), single, single]
  simp only [beq_iff_eq, eq_comm (b := other)]
  by_cases isTarget : other = name
  · have same : (home ++ [other]).drop (home ++ [name]).length = [] := by simp
    rw [if_pos isTarget, if_pos isTarget, same, List.append_nil, folder.inside]
  · rw [if_neg isTarget, if_neg isTarget, folder.inside]

end Disk.Folder

/-! ## The temporary file -/

namespace Files

open Disk (Call Entry Folder Path Place Plain Standing)
open Host (Action Machine ask tryCall)

/-- The temporary name that is drawn next for a file. -/
def nextBeside (machine : Machine) (last : String) : String :=
  temporaryName last (Machine.freshName machine.names)

theorem nextBeside_ne (machine : Machine) (last : String) : nextBeside machine last ≠ last :=
  temporaryName_ne last _

/-- A file can be written in a directory that is there, and the temporary name that is drawn next is
not in use. -/
structure Ready (machine : Machine) (directory : Path) (home : Place) (last : String) : Prop where
  sound : Disk.Sound machine.disk
  standing : Standing machine.disk directory home
  roomy : Roomy directory last
  free : machine.disk.filesAt home (nextBeside machine last) = none

/-- Nothing has changed in a directory but that a file has been opened under the next temporary
name, which has some content. -/
structure Holding (machine : Machine) (home : Place) (last : String) (files : String → Option Entry)
    (part : String) (disk : Disk) : Prop where
  folder : Folder machine.disk home files disk
  isFile : files (nextBeside machine last) = some (.file machine.disk.nextIdentity part)
  unchanged : ∀ name, name ≠ nextBeside machine last → files name = machine.disk.filesAt home name

/-- A write is spoiled: the temporary file is opened, but not filled. -/
def Spoiled (faults : Call → Option Host.Fault) (machine : Machine) (directory : Path)
    (last content : String) : Prop :=
  faults (.makeDirectories directory) = none
    ∧ faults (.openEmpty (directory.child (nextBeside machine last))) = none
    ∧ Unfilled faults machine.disk.nextIdentity content

/-- What a write leaves in the directory, in terms of whether it is spoiled. -/
structure Leaving (machine : Machine) (home : Place) (last : String) (spoiled : Prop)
    (came : Except Failure Unit × Machine) : Prop where
  /-- A write that fails changes nothing at the place. -/
  untouched : ∀ failure, came.1 = .error failure →
    came.2.disk.filesAt home last = machine.disk.filesAt home last
  /-- The temporary file is left exactly when the write is spoiled. -/
  temporary : (came.2.disk.filesAt home (nextBeside machine last)).isSome ↔ spoiled
  /-- A write that is spoiled fails. -/
  fails : spoiled → ∃ failure, came.1 = .error failure
  /-- Nothing else in the directory changes. -/
  others : ∀ name, name ≠ last → name ≠ nextBeside machine last →
    came.2.disk.filesAt home name = machine.disk.filesAt home name

/-- When nothing in the directory has changed, nothing is left. -/
theorem Leaving.of_same {machine : Machine} {home : Place} {last : String} {spoiled : Prop}
    {came : Except Failure Unit × Machine}
    (free : machine.disk.filesAt home (nextBeside machine last) = none) (notSpoiled : ¬ spoiled)
    (same : came.2.disk.filesAt home = machine.disk.filesAt home) :
    Leaving machine home last spoiled came where
  untouched _ _ := by rw [same]
  temporary := by simp [same, free, notSpoiled]
  fails isSpoiled := (notSpoiled isSpoiled).elim
  others _ _ _ := by rw [same]

/-- A write that succeeds may change what lies at the place, and nothing else. -/
theorem Leaving.of_ok {machine machine' : Machine} {home : Place} {last : String}
    (gone : machine'.disk.filesAt home (nextBeside machine last) = none)
    (others : ∀ name, name ≠ last → name ≠ nextBeside machine last →
      machine'.disk.filesAt home name = machine.disk.filesAt home name) :
    Leaving machine home last False (.ok (), machine') where
  untouched _ isError := by cases isError
  temporary := by simp [gone]
  fails := False.elim
  others := others

/-- A write that fails while its temporary file is incomplete leaves the file. -/
theorem Holding.leaving {machine machine' : Machine} {home : Place} {last : String}
    {files : String → Option Entry} {part : String}
    (holding : Holding machine home last files part machine'.disk) {spoiled : Prop}
    (isSpoiled : spoiled) (failure : Failure) :
    Leaving machine home last spoiled (.error failure, machine') where
  untouched _ _ := (holding.folder.inside last).trans
    (holding.unchanged last (nextBeside_ne machine last).symm)
  temporary := iff_of_true (by
    rw [Disk.filesAt, holding.folder.inside, holding.isFile]
    rfl) isSpoiled
  fails _ := ⟨failure, rfl⟩
  others name _ notBeside := (holding.folder.inside name).trans (holding.unchanged name notBeside)

namespace Ready

variable {machine : Machine} {directory : Path} {home : Place} {last : String}
  (ready : Ready machine directory home last) {faults : Call → Option Host.Fault}
include ready

theorem plain : Plain (nextBeside machine last) :=
  ready.roomy.plain_beside machine.names

theorem isPath : Disk.checkPath (directory.trimmed ++ [nextBeside machine last]) = .ok () :=
  ready.roomy.isPath_beside machine.names

theorem temporaryPath_eq :
    temporaryPath (directory.child last) (Machine.freshName machine.names)
      = directory.child (nextBeside machine last) := by
  rw [temporaryPath, parent_eq ready.roomy ready.standing.resolved, name_eq ready.roomy]
  rfl

/-- The file that is opened is the only one of its number. -/
theorem alone {files : String → Option Entry} {part : String} {disk : Disk}
    (holding : Holding machine home last files part disk) :
    Alone files (nextBeside machine last) machine.disk.nextIdentity := by
  intro name entry found isIdentity
  by_contra differs
  rw [holding.unchanged name differs] at found
  have given := (Folder.start ready.sound home).lt_nextIdentity found isIdentity
  exact Nat.lt_irrefl _ given

/-- What has been written to the temporary file is its content. -/
theorem holding_setContent {files : String → Option Entry} {old : String} {disk : Disk}
    (holding : Holding machine home last files old disk) (part : String) :
    Holding machine home last (Function.update files (nextBeside machine last)
      (some (.file machine.disk.nextIdentity part))) part
      (disk.setContent machine.disk.nextIdentity part) where
  folder :=
    holding.folder.write ready.sound holding.isFile (Nat.le_refl _) (ready.alone holding) part
  isFile := Function.update_self ..
  unchanged name differs :=
    (Function.update_of_ne differs ..).trans (holding.unchanged name differs)

theorem opens : machine.disk.openEmpty (directory.child (nextBeside machine last))
    = .ok (machine.disk.nextIdentity, machine.disk.addFile (home ++ [nextBeside machine last])) :=
  (Folder.start ready.sound home).openEmpty ready.standing ready.plain ready.isPath ready.free

/-- The temporary file is opened, unless that fails, and has some content then. -/
theorem evalFailing_writeTemporary (faults : Call → Option Host.Fault) (names : Nat)
    (content : String) :
    ∃ result disk, Machine.evalFailing faults
        (writeTemporary (directory.child (nextBeside machine last)) content)
        { machine with names } = (.ok result, { machine with names, disk })
      ∧ ((faults (.openEmpty (directory.child (nextBeside machine last))) ≠ none ∧ result ≠ .ok ()
          ∧ disk = machine.disk)
        ∨ (faults (.openEmpty (directory.child (nextBeside machine last))) = none
          ∧ (∃ files part, Holding machine home last files part disk)
          ∧ (result = .ok () ↔ ¬ Unfilled faults machine.disk.nextIdentity content))) := by
  rw [writeTemporary_eq]
  cases meets : faults (.openEmpty (directory.child (nextBeside machine last))) with
  | some fault =>
      exact ⟨.error fault.errno, machine.disk,
        Attempt.eval_bind_ok (Machine.evalFailing_fault _ meets), .inl ⟨by simp, nofun, rfl⟩⟩
  | none =>
      have opened := Machine.evalFailing_call { machine with names } meets
      simp only [Disk.answer, ready.opens, Disk.opening] at opened
      obtain ⟨filled, disk, fills, isDisk, isFilled⟩ := evalFailing_fill faults
        { machine with names, disk := machine.disk.addFile (home ++ [nextBeside machine last]) }
        machine.disk.nextIdentity content
      obtain ⟨closed, closes, isClosed⟩ := evalFailing_close faults { machine with names, disk }
        machine.disk.nextIdentity filled
      refine ⟨closed, disk, (Attempt.eval_bind_ok opened).trans
        ((Attempt.eval_bind_ok fills).trans closes), .inr ⟨rfl, ?_, ?_⟩⟩
      · have holding : Holding machine home last _ ""
            (machine.disk.addFile (home ++ [nextBeside machine last])) :=
          ⟨(Folder.start ready.sound home).addFile ready.free, Function.update_self ..,
            fun _ differs => Function.update_of_ne differs ..⟩
        rcases isDisk with rfl | ⟨part, rfl⟩
        · exact ⟨_, _, holding⟩
        · exact ⟨_, _, ready.holding_setContent holding part⟩
      · rw [isClosed, isFilled, Unfilled, Option.isSome_iff_ne_none, Option.isSome_iff_ne_none]
        tauto

/-! ## The end of a write -/

section

variable (spares : ∀ path, faults (.unlink path) = none) (machine' : Machine)
  {files : String → Option Entry} (folder : Folder machine.disk home files machine'.disk)
  {identity : Nat} {part : String}
  (isFile : files (nextBeside machine last) = some (.file identity part))
include spares folder isFile

/-- The temporary file is removed, and no other. -/
theorem discards :
    ∃ disk, machine'.evalFailing faults (discard (directory.child (nextBeside machine last)))
        = (.ok (), { machine' with disk })
      ∧ disk.filesAt home = Function.update files (nextBeside machine last) none := by
  have removes : machine'.disk.unlink (directory.child (nextBeside machine last)) = _ :=
    folder.unlink ready.standing ready.plain ready.isPath isFile
  have calls := machine'.evalFailing_call
    (spares (directory.child (nextBeside machine last)))
  simp only [Disk.answer, removes, Disk.changing] at calls
  exact ⟨_, Attempt.eval_bind_ok calls,
    funext (folder.without ready.standing.rooted ready.free).inside⟩

/-- A write that fails once the temporary file is complete removes it. -/
theorem leaving_discard (unchanged : ∀ name, name ≠ nextBeside machine last →
      files name = machine.disk.filesAt home name) {next : Unit → Action Unit}
    {failure : Failure} (fails : next () = Attempt.fail failure) :
    Leaving machine home last False (machine'.evalFailing faults
      (discard (directory.child (nextBeside machine last)) >>= next)) := by
  obtain ⟨disk, removes, inside⟩ := ready.discards spares machine' folder isFile
  rw [Machine.evalFailing, Attempt.eval_bind_ok removes, fails]
  refine Leaving.of_same ready.free not_false ?_
  show disk.filesAt home = _
  rw [inside]
  funext name
  by_cases here : name = nextBeside machine last
  · rw [here, Function.update_self, ready.free]
  · rw [Function.update_of_ne here, unchanged name here]

end

section

variable (spares : ∀ path, faults (.unlink path) = none) {machine' : Machine}
  {files : String → Option Entry} {part : String}
  (holding : Holding machine home last files part machine'.disk)
include spares holding

/-- A temporary file that is complete is moved to its place, or removed. -/
theorem leaving_move :
    Leaving machine home last False (machine'.evalFailing faults
      (move (directory.child last) (directory.child (nextBeside machine last)) (.ok ()))) := by
  have folder := holding.folder
  have refused (errno : Disk.Errno) (step : machine'.evalFailing faults
      (tryCall (.rename (directory.child (nextBeside machine last)) (directory.child last)))
        = (.ok (.error errno), machine')) :
      Leaving machine home last False (machine'.evalFailing faults
        (move (directory.child last) (directory.child (nextBeside machine last)) (.ok ()))) := by
    rw [Machine.evalFailing, move, Attempt.eval_bind_ok step]
    exact ready.leaving_discard spares machine' folder holding.isFile holding.unchanged rfl
  cases meets : faults
      (.rename (directory.child (nextBeside machine last)) (directory.child last)) with
  | some fault => exact refused fault.errno (machine'.evalFailing_fault meets)
  | none =>
      have renames : machine'.disk.rename (directory.child (nextBeside machine last))
          (directory.child last) = _ :=
        folder.rename ready.standing ready.plain ready.isPath ready.roomy.plain
          ready.roomy.isPath holding.isFile (ready.alone holding)
          (nextBeside_ne machine last)
      have calls := machine'.evalFailing_call meets
      simp only [Disk.answer, renames] at calls
      split at calls
      next isDirectory => exact refused .isDirectory calls
      next =>
        let disk := machine'.disk.relocate (home ++ [nextBeside machine last]) (home ++ [last])
        have moves : machine'.evalFailing faults
            (move (directory.child last) (directory.child (nextBeside machine last)) (.ok ()))
              = (.ok (), { machine' with disk }) :=
          (Attempt.eval_bind_ok calls).trans (evalFailing_syncEntries ..)
        rw [moves]
        refine .of_ok ?_ fun name notLast notBeside => ?_
        · simp [disk, folder.filesAt_relocate (nextBeside_ne machine last), nextBeside_ne]
        · simp only [disk, folder.filesAt_relocate (nextBeside_ne machine last), if_neg notLast,
            if_neg notBeside, holding.unchanged name notBeside]

/-- A temporary file that is complete is linked to its place, where that is free, and removed. -/
theorem leaving_link :
    Leaving machine home last False (machine'.evalFailing faults
      (link (directory.child last) (directory.child (nextBeside machine last)) (.ok ()))) := by
  have folder := holding.folder
  have refused (errno : Disk.Errno) (step : machine'.evalFailing faults
      (tryCall (.link (directory.child (nextBeside machine last)) (directory.child last)))
        = (.ok (.error errno), machine')) :
      Leaving machine home last False (machine'.evalFailing faults
        (link (directory.child last) (directory.child (nextBeside machine last)) (.ok ()))) := by
    rw [Machine.evalFailing, link, Attempt.eval_bind_ok step]
    by_cases taken : errno = .exists
    · exact ready.leaving_discard spares machine' folder holding.isFile holding.unchanged
        (if_pos taken)
    · exact ready.leaving_discard spares machine' folder holding.isFile holding.unchanged
        (if_neg taken)
  cases meets : faults
      (.link (directory.child (nextBeside machine last)) (directory.child last)) with
  | some fault => exact refused fault.errno (machine'.evalFailing_fault meets)
  | none =>
      have links : machine'.disk.addLink (directory.child (nextBeside machine last))
          (directory.child last) = _ :=
        folder.addLink ready.standing ready.roomy.plain ready.roomy.isPath ready.plain ready.isPath
          holding.isFile
      have calls := machine'.evalFailing_call meets
      simp only [Disk.answer, links] at calls
      split at calls
      next isThere => exact refused .exists calls
      next isFree =>
        have put := folder.put (folder.missing (Option.not_isSome_iff_eq_none.mp isFree))
          (show ∀ identity ∈ Entry.identity? (.file machine.disk.nextIdentity part),
              identity < machine'.disk.nextIdentity by
            rintro _ ⟨⟩
            exact folder.lt_nextIdentity holding.isFile rfl)
        obtain ⟨disk, removes, inside⟩ := ready.discards spares { machine' with
          disk := machine'.disk.put (home ++ [last]) (.file machine.disk.nextIdentity part) } put
          ((Function.update_of_ne (nextBeside_ne machine last) ..).trans holding.isFile)
        have linked : machine'.evalFailing faults
            (link (directory.child last) (directory.child (nextBeside machine last)) (.ok ()))
              = (.ok (), { machine' with disk }) :=
          (Attempt.eval_bind_ok calls).trans
            ((Attempt.eval_bind_ok (evalFailing_syncEntries ..)).trans removes)
        rw [linked]
        refine .of_ok ?_ fun name notLast notBeside => ?_
        · simp [inside]
        · simp only [inside, Function.update_of_ne notBeside, Function.update_of_ne notLast,
            holding.unchanged name notBeside]

end

/-! ## Whole writes -/

/-- What a write leaves is told by whether it is spoiled, when a complete temporary file does not
stay. -/
theorem leaving_stage (content : String) {finish : Path → Except Disk.Errno Unit → Action Unit}
    (spared : faults (.makeDirectories directory) = none)
    (refuses : ∀ temporary errno, ∃ failure, finish temporary (.error errno) = Attempt.fail failure)
    (completes : ∀ (machine' : Machine) files part,
      Holding machine home last files part machine'.disk → Leaving machine home last False
        (machine'.evalFailing faults
          (finish (directory.child (nextBeside machine last)) (.ok ())))) :
    Leaving machine home last (Spoiled faults machine directory last content)
      (machine.evalFailing faults (stage (directory.child last) content finish)) := by
  have draws : machine.evalFailing faults (ask .freshName)
      = (.ok (Machine.freshName machine.names), { machine with names := machine.names + 1 }) := rfl
  obtain ⟨result, disk, writes, isResult⟩ :=
    ready.evalFailing_writeTemporary faults (machine.names + 1) content
  rw [Machine.evalFailing, stage, Attempt.eval_bind_ok draws, ready.temporaryPath_eq,
    Attempt.eval_bind_ok writes]
  cases result with
  | error errno =>
      obtain ⟨failure, fails⟩ := refuses (directory.child (nextBeside machine last)) errno
      rw [fails]
      rcases isResult with ⟨notOpened, _, rfl⟩ | ⟨opened, ⟨files, part, holding⟩, isFilled⟩
      · exact .of_same ready.free (fun isSpoiled => notOpened isSpoiled.2.1) rfl
      · have unfilled : Unfilled faults machine.disk.nextIdentity content := by
          simpa using isFilled
        exact holding.leaving ⟨spared, opened, unfilled⟩ failure
  | ok =>
      rcases isResult with ⟨_, notOk, _⟩ | ⟨_, ⟨files, part, holding⟩, isFilled⟩
      · exact (notOk rfl).elim
      · have notSpoiled : ¬ Spoiled faults machine directory last content := fun isSpoiled =>
          isFilled.mp rfl isSpoiled.2.2
        rw [eq_false notSpoiled]
        exact completes _ files part holding

end Ready

/-- A file can be written in a directory that is there or can be created; there is room beside it
for a temporary name, and the one that is drawn next is not in use. -/
structure Writable (machine : Machine) (directory : Path) (home : Place) (last : String) :
    Prop where
  roomy : Roomy directory last
  ground : Ground machine.disk directory home
  free : machine.disk.filesAt home (nextBeside machine last) = none

namespace Writable

variable {machine : Machine} {directory : Path} {home : Place} {last : String}
  (writable : Writable machine directory home last) {faults : Call → Option Host.Fault}
include writable

/-- Once the directory is there the file can be written in it, and its entries are as before. -/
theorem ready :
    Ready (machine.withDirectory directory) directory home last
      ∧ (machine.withDirectory directory).disk.filesAt home = machine.disk.filesAt home
      ∧ machine.disk.makeDirectories directory
        = (.ok none, (machine.withDirectory directory).disk) := by
  obtain ⟨roomy, ground, free⟩ := writable
  cases ground with
  | standing sound standing =>
      have makes := (Folder.start sound home).makeDirectories standing
      have same : machine.withDirectory directory = machine := by
        rw [Machine.withDirectory, makes]
      rw [same]
      exact ⟨⟨sound, standing, roomy, free⟩, rfl, makes⟩
  | unbuilt unbuilt =>
      obtain ⟨made, makes, sound, standing, empty⟩ := unbuilt.exists_standing
      have isMade : (machine.withDirectory directory).disk = made := congrArg Prod.snd makes
      have nothing (name : String) : made.filesAt home name = none := empty [name] (by simp)
      refine ⟨⟨?_, ?_, roomy, ?_⟩, ?_, ?_⟩
      · rwa [isMade]
      · rwa [isMade]
      · rw [isMade, nothing]
      · rw [isMade]
        funext name
        rw [nothing, Disk.filesAt, unbuilt.free]
      · rw [isMade, makes]

/-- The directory is made at first, where it is missing. -/
theorem leaving_ensured {content : String} {finish : Path → Except Disk.Errno Unit → Action Unit}
    (refuses : ∀ temporary errno, ∃ failure, finish temporary (.error errno) = Attempt.fail failure)
    (completes : ∀ made : Machine, Ready made directory home last →
      ∀ (machine' : Machine) files part, Holding made home last files part machine'.disk →
        Leaving made home last False
          (machine'.evalFailing faults
            (finish (directory.child (nextBeside made last)) (.ok ())))) :
    Leaving machine home last
      (Spoiled faults (machine.withDirectory directory) directory last content)
      (machine.evalFailing faults (ensureDirectory (directory.child last).parent >>= fun _ =>
        stage (directory.child last) content finish)) := by
  obtain ⟨ready, same, makes⟩ := writable.ready
  have ensured : ensureDirectory (directory.child last).parent
      = Host.makeDirectories directory fun obstacle =>
        .ofCall (.directory directory.text) obstacle.errno := by
    rw [parent_eq writable.roomy ready.standing.resolved, ensureDirectory,
      if_neg ready.standing.resolved.nonempty]
  cases meets : faults (.makeDirectories directory) with
  | some fault =>
      have stops : machine.evalFailing faults (ensureDirectory (directory.child last).parent)
          = (.error (.ofCall (.directory directory.text) fault.errno), machine) := by
        rw [ensured]
        exact Attempt.eval_bind_ok (machine.evalFailing_fault meets)
      rw [Machine.evalFailing, Attempt.eval_bind_error stops]
      refine .of_same writable.free (fun isSpoiled => ?_) rfl
      cases meets.symm.trans isSpoiled.1
  | none =>
      have calls := machine.evalFailing_call meets
      simp only [Disk.answer, makes] at calls
      have makesIt : machine.evalFailing faults (ensureDirectory (directory.child last).parent)
          = (.ok (), machine.withDirectory directory) := by
        rw [ensured]
        exact Attempt.eval_bind_ok calls
      have leaving := ready.leaving_stage content meets refuses (completes _ ready)
      rw [Machine.evalFailing, Attempt.eval_bind_ok makesIt]
      exact ⟨same ▸ leaving.untouched, leaving.temporary, leaving.fails, same ▸ leaving.others⟩

variable (spares : ∀ path, faults (.unlink path) = none) (content : String)
include spares

/-- **Writing a file as a whole** leaves its temporary file exactly when it is spoiled, whatever
fails but a removal. -/
theorem atomicWrite_leaves :
    Leaving machine home last
      (Spoiled faults (machine.withDirectory directory) directory last content)
      (machine.evalFailing faults (atomicWrite (directory.child last) content)) :=
  atomicWrite_eq _ _ ▸ writable.leaving_ensured (fun _ _ => ⟨_, rfl⟩)
    fun _ ready _ _ _ holding => ready.leaving_move spares holding

/-- **Creating a file as a whole** leaves its temporary file exactly when it is spoiled, whatever
fails but a removal. -/
theorem atomicCreate_leaves :
    Leaving machine home last
      (Spoiled faults (machine.withDirectory directory) directory last content)
      (machine.evalFailing faults (atomicCreate (directory.child last) content)) :=
  atomicCreate_eq _ _ ▸ writable.leaving_ensured (fun _ _ => ⟨_, rfl⟩)
    fun _ ready _ _ _ holding => ready.leaving_link spares holding

end Writable

/-! ## A single call that fails -/

/-- One call meets with a fault, and no other does. -/
def only (call : Call) (fault : Host.Fault) : Call → Option Host.Fault := fun other =>
  if other = call then some fault else none

section

variable {call other : Call} {fault : Host.Fault}

theorem only_eq_some_iff {fault' : Host.Fault} :
    only call fault other = some fault' ↔ other = call ∧ fault = fault' := by
  rw [only]
  split <;> simp_all

theorem only_eq_none_iff : only call fault other = none ↔ other ≠ call := by
  rw [only]
  split <;> simp_all

/-- The calls that come between the opening of a temporary file and the passing on of its name. -/
def Between (machine : Machine) (content : String) (call : Call) (fault : Host.Fault) : Prop :=
  call = .write machine.disk.nextIdentity content ∨ call = .close machine.disk.nextIdentity
    ∨ call = .syncContent machine.disk.nextIdentity ∧ needsFullSync fault.errno = false

/-- **A single failure spoils a write** exactly when it is that of writing, of closing or, unless
the whole file can be brought to the device instead, of bringing the content there. -/
theorem spoiled_only_iff (call : Call) (fault : Host.Fault) (machine : Machine) (directory : Path)
    (last content : String) :
    Spoiled (only call fault) machine directory last content
      ↔ Between machine content call fault := by
  have unflushed : Unflushed (only call fault) machine.disk.nextIdentity
      ↔ call = .syncContent machine.disk.nextIdentity ∧ needsFullSync fault.errno = false := by
    constructor
    · rintro ⟨fault', meets, unhelped⟩
      obtain ⟨rfl, rfl⟩ := only_eq_some_iff.mp meets
      refine ⟨rfl, unhelped.resolve_right fun meetsToo => ?_⟩
      rw [only_eq_none_iff.mpr (by simp)] at meetsToo
      cases meetsToo
    · rintro ⟨rfl, unhelped⟩
      exact ⟨fault, only_eq_some_iff.mpr ⟨rfl, rfl⟩, .inl unhelped⟩
  have meets (other : Call) : (only call fault other).isSome ↔ call = other := by
    rw [Option.isSome_iff_ne_none, Ne, only_eq_none_iff, not_not, eq_comm]
  rw [Spoiled, Unfilled, unflushed, meets, meets, only_eq_none_iff, only_eq_none_iff, Between]
  constructor
  · rintro ⟨_, _, writes | syncs | closes⟩
    · exact .inl writes
    · exact .inr (.inr syncs)
    · exact .inr (.inl closes)
  · rintro (rfl | rfl | ⟨rfl, unhelped⟩)
    · exact ⟨nofun, nofun, .inl rfl⟩
    · exact ⟨nofun, nofun, .inr (.inr rfl)⟩
    · exact ⟨nofun, nofun, .inr (.inl ⟨rfl, unhelped⟩)⟩

/-- **When a single call fails** and it is not a removal, a write or a creation leaves its temporary
file exactly if the call comes between the opening of the file and the passing on of its name. -/
theorem Writable.single_fault_leaves {machine : Machine} {directory : Path} {home : Place}
    {last : String} (writable : Writable machine directory home last)
    (noRemoval : ∀ path, call ≠ .unlink path) (fault : Host.Fault) (content : String) :
    Leaving machine home last (Between (machine.withDirectory directory) content call fault)
        (machine.evalFailing (only call fault) (atomicWrite (directory.child last) content))
      ∧ Leaving machine home last (Between (machine.withDirectory directory) content call fault)
        (machine.evalFailing (only call fault) (atomicCreate (directory.child last) content)) := by
  have spares (path : Path) : only call fault (.unlink path) = none :=
    only_eq_none_iff.mpr fun same => noRemoval path same.symm
  have between := propext
    (spoiled_only_iff call fault (machine.withDirectory directory) directory last content)
  exact between ▸ ⟨writable.atomicWrite_leaves spares content,
    writable.atomicCreate_leaves spares content⟩

end

/-- On a new machine a file can be written in a directory that is yet to be made. -/
theorem writable_start : Writable Machine.start ["data"] ["data"] "users.json" :=
  ⟨freeName_start.roomy, freeName_start.ground, rfl⟩

/-- When the device is full the temporary file stays, and the write fails. -/
theorem full_device_leaves : Leaving Machine.start ["data"] "users.json" True
    (Machine.start.evalFailing (only (.write 2 "content") ⟨.noSpace, some "con"⟩)
      (atomicWrite (Path.child ["data"] "users.json") "content")) := by
  have spoils : Between (Machine.start.withDirectory ["data"]) "content" (.write 2 "content")
      ⟨.noSpace, some "con"⟩ := .inl (by decide +kernel)
  have leaves := (writable_start.single_fault_leaves
    (show ∀ path, Call.write 2 "content" ≠ .unlink path from nofun) ⟨.noSpace, some "con"⟩
    "content").1
  rwa [eq_true spoils] at leaves

end Files

end DocStore
