import DocStore.Proofs.Disk.Folder
import DocStore.Proofs.Files.Requests
import DocStore.Proofs.Host.Contest
import DocStore.Proofs.Host.Stages
/-!
# A file that several create at once

Several programs may create one file at the same time, and others read it meanwhile (`Deed`).  A
creation writes its content under a temporary name of its own and links it to the place then, which
succeeds for the first that comes to it and for nobody else; so what a reader finds at the place is
nothing or the whole content of the one that has won, and it stays.

`Held` says what lies in the directory while all have come to some stages: the temporary files that
are in use, each with as much as has been written to it, and at the place nothing or the file of the
winner.  A content is written by the number of a file, wherever that has entries, so it matters that
the file of one who writes is found under its temporary name only (`Sole`).  Every request keeps all
that (`Racing.goes`), and what becomes of the creations and of those who read follows
(`creates_file_once`).
-/

set_option autoImplicit false

namespace DocStore.Files

open Disk (Entry Folder Path Place Plain Sound Standing Unbuilt)
open Host (Action AsksFirst Contest Machine Pool Proceeds Request ask tryCall)

/-! ## What is done with the file -/

/-- What is told when something has been done with a file. -/
inductive Told where
  /-- The file has been created. -/
  | created
  /-- A content has been found, or no file. -/
  | found (content? : Option String)
deriving DecidableEq

/-- What is done with a file. -/
inductive Deed where
  | create (content : String)
  | read

/-- Do something with a file. -/
def Deed.action (target : Path) : Deed → Action Told
  | create content => do
      atomicCreate target content
      return .created
  | read => do return .found (← readDocument target)

/-- Doing something with a file, as a program. -/
def Deed.program (target : Path) (deed : Deed) : Program Host.interface (Except Failure Told) :=
  (deed.action target).toProgram

theorem asksAtMost_deed (target : Path) (deed : Deed) :
    (deed.program target).AsksAtMost Request.Free 10 := by
  cases deed with
  | create content =>
      have asks : ((Deed.create content).action target).AsksAtMost Request.Free (10 + 0) :=
        .bind (asksAtMost_atomicCreate target content) fun _ => .pure _
      exact asks
  | read =>
      have asks : (Deed.read.action target).AsksAtMost Request.Free ((1 + 0) + 9) :=
        .bind (asksAtMost_readDocument target) fun _ => .pure _
      exact asks

/-! ## The stages of a creation -/

/-- How far the creation of a file has come. -/
inductive Phase where
  /-- It creates the directory where that is missing. -/
  | ensures
  /-- It draws a fresh name. -/
  | draws
  /-- It opens a file under a temporary name. -/
  | opens (beside : String)
  /-- It writes the content to the file with a number. -/
  | writes (beside : String) (handle : Nat)
  /-- It brings the content to the device. -/
  | flushes (beside : String) (handle : Nat)
  /-- It closes the file. -/
  | closes (beside : String) (handle : Nat)
  /-- It links the file to its place. -/
  | links (beside : String)
  /-- It has won, and brings the entries of the directory to the device. -/
  | syncs (beside : String)
  /-- It removes the temporary file; it knows whether it has won. -/
  | discards (beside : String) (won : Bool)
  /-- It has ended. -/
  | ended (won : Bool)

/-- How far something has come that is done with a file. -/
inductive Stage where
  | creates (content : String) (phase : Phase)
  | reads
  /-- It has been told what has been found. -/
  | told (content? : Option String)

/-- How far something has come that is about to be done. -/
def Deed.start : Deed → Stage
  | create content => .creates content .ensures
  | read => .reads

/-- What is done at a stage. -/
def Stage.deed : Stage → Deed
  | creates content _ => .create content
  | reads | told _ => .read

/-- What follows when a content has been written under a temporary name. -/
def link (target temporary : Path) : Except Disk.Errno Unit → Action Unit
  | .error errno => Attempt.fail (.ofCall (.write target.text) errno)
  | .ok () => do
      match ← tryCall (.link temporary target) with
      | .ok () => do
          syncEntries target.parent
          discard temporary
      | .error errno => do
          discard temporary
          if errno = .exists then Attempt.fail (.fileExists target.text)
          else Attempt.fail (.ofCall (.write target.text) errno)

/-- What follows when a file has been filled. -/
def close (handle : Nat) (filled : Except Disk.Errno Unit) : Action (Except Disk.Errno Unit) := do
  match ← tryCall (.close handle) with
  | .ok () => return filled
  | .error errno => return .error errno

theorem writeTemporary_eq (temporary : Path) (content : String) :
    writeTemporary temporary content = tryCall (.openEmpty temporary) >>= fun opened =>
      match opened with
      | .error errno => pure (.error errno)
      | .ok handle => fill handle content >>= close handle := by
  have closes (handle : Nat) (filled : Except Disk.Errno Unit) :
      close handle filled = tryCall (.close handle) >>= fun closed =>
        match closed with
        | .ok () => pure filled
        | .error errno => pure (.error errno) := rfl
  unfold writeTemporary
  congr 1
  funext opened
  cases opened with
  | error errno => rfl
  | ok handle =>
      change (fill handle content >>= _) = fill handle content >>= _
      congr 1
      funext filled
      rw [closes]
      congr 1
      funext closed
      cases closed <;> rfl

namespace Phase

/-- The temporary name that is in use. -/
def beside? : Phase → Option String
  | opens beside | writes beside _ | flushes beside _ | closes beside _ | links beside
  | syncs beside | discards beside _ => some beside
  | _ => none

/-- Whether the creation has won, once that is known. -/
def won? : Phase → Option Bool
  | syncs _ => some true
  | discards _ won | ended won => some won
  | _ => none

/-- What lies under the temporary name. -/
def Holds (content : String) : Phase → Option Entry → Prop
  | writes _ handle, found => found = some (.file handle "")
  | flushes _ handle, found | closes _ handle, found => found = some (.file handle content)
  | links _, found | syncs _, found | discards _ _, found =>
      ∃ identity, found = some (.file identity content)
  | _, found => found = none

/-- What is left of a creation. -/
def action (target : Path) (content : String) : Phase → Action Unit
  | ensures => atomicCreate target content
  | draws => do
      let temporary := temporaryPath target (← ask .freshName)
      writeTemporary temporary content >>= link target temporary
  | opens beside =>
      writeTemporary (target.parent.child beside) content
        >>= link target (target.parent.child beside)
  | writes beside handle =>
      (fill handle content >>= close handle) >>= link target (target.parent.child beside)
  | flushes beside handle =>
      (flush handle >>= close handle) >>= link target (target.parent.child beside)
  | closes beside handle =>
      close handle (.ok ()) >>= link target (target.parent.child beside)
  | links beside => link target (target.parent.child beside) (.ok ())
  | syncs beside => do
      syncEntries target.parent
      discard (target.parent.child beside)
  | discards beside true => discard (target.parent.child beside)
  | discards beside false => do
      discard (target.parent.child beside)
      Attempt.fail (.fileExists target.text)
  | ended true => pure ()
  | ended false => Attempt.fail (.fileExists target.text)

end Phase

namespace Stage

/-- The temporary name that is in use. -/
def beside? : Stage → Option String
  | creates _ phase => phase.beside?
  | _ => none

/-- Whether a creation has won, once that is known. -/
def won? : Stage → Option Bool
  | creates _ phase => phase.won?
  | _ => none

/-- What lies under the temporary name. -/
def Holds : Stage → Option Entry → Prop
  | creates content phase, found => phase.Holds content found
  | _, found => found = none

/-- What lies at the place when a creation has won. -/
def Takes : Stage → Option Entry → Prop
  | creates content _, found => ∃ identity, found = some (.file identity content)
  | _, _ => False

/-- What is left to do. -/
def action (target : Path) : Stage → Action Told
  | creates content phase => do
      phase.action target content
      return .created
  | reads => Deed.read.action target
  | told content? => pure (.found content?)

/-- What is left to do, as a program. -/
def program (target : Path) (stage : Stage) : Program Host.interface (Except Failure Told) :=
  (stage.action target).toProgram

section

variable {target : Path} {content beside : String} {handle : Nat} {machine : Machine} {disk : Disk}

theorem program_start (deed : Deed) : deed.start.program target = deed.program target := by
  cases deed <;> rfl

theorem ensures_draws (nonempty : target.parent ≠ [])
    (makes : machine.disk.makeDirectories target.parent = (.ok none, disk)) :
    Proceeds (program target) (creates content .ensures) machine (creates content .draws)
      { machine with disk } := by
  have asks : AsksFirst ((creates content .ensures).action target)
      (.disk (.makeDirectories target.parent)) (.ok none) ((creates content .draws).action target) := by
    refine .bind ?_ _
    rw [Phase.action, atomicCreate, ensureDirectory, if_neg nonempty]
    exact .makeDirectories _ _ _
  exact asks.proceeds (by trivial) (by rw [Machine.answer, Disk.answer, makes])

theorem draws_opens :
    Proceeds (program target) (creates content .draws) machine
      (creates content (.opens (temporaryName target.name (Machine.freshName machine.names))))
      { machine with names := machine.names + 1 } := by
  have asks : AsksFirst ((creates content .draws).action target) .freshName
      (Machine.freshName machine.names) ((creates content (.opens _)).action target) :=
    ⟨_, rfl, rfl⟩
  exact asks.proceeds (by trivial) rfl

theorem opens_writes
    (opens : machine.disk.openEmpty (target.parent.child beside) = .ok (handle, disk)) :
    Proceeds (program target) (creates content (.opens beside)) machine
      (creates content (.writes beside handle)) { machine with disk } := by
  have asks : AsksFirst ((creates content (.opens beside)).action target)
      (.disk (.openEmpty (target.parent.child beside))) (.ok handle)
      ((creates content (.writes beside handle)).action target) := by
    refine .bind (show AsksFirst (writeTemporary _ content >>= _) _ _
      ((fill handle content >>= close handle) >>= _) from .bind ?_ _) _
    rw [writeTemporary_eq]
    exact ⟨_, rfl, rfl⟩
  exact asks.proceeds (by trivial) (by rw [Machine.answer, Disk.answer, opens]; rfl)

theorem writes_flushes :
    Proceeds (program target) (creates content (.writes beside handle)) machine
      (creates content (.flushes beside handle))
      { machine with disk := machine.disk.setContent handle content } := by
  have asks : AsksFirst ((creates content (.writes beside handle)).action target)
      (.disk (.write handle content)) (.ok ())
      ((creates content (.flushes beside handle)).action target) := ⟨_, rfl, rfl⟩
  exact asks.proceeds (by trivial) rfl

theorem flushes_closes :
    Proceeds (program target) (creates content (.flushes beside handle)) machine
      (creates content (.closes beside handle)) machine := by
  have asks : AsksFirst ((creates content (.flushes beside handle)).action target)
      (.disk (.syncContent handle)) (.ok ())
      ((creates content (.closes beside handle)).action target) := ⟨_, rfl, rfl⟩
  exact asks.proceeds (by trivial) rfl

theorem closes_links :
    Proceeds (program target) (creates content (.closes beside handle)) machine
      (creates content (.links beside)) machine := by
  have asks : AsksFirst ((creates content (.closes beside handle)).action target)
      (.disk (.close handle)) (.ok ()) ((creates content (.links beside)).action target) :=
    ⟨_, rfl, rfl⟩
  exact asks.proceeds (by trivial) rfl

theorem links_syncs
    (links : machine.disk.addLink (target.parent.child beside) target = .ok disk) :
    Proceeds (program target) (creates content (.links beside)) machine
      (creates content (.syncs beside)) { machine with disk } := by
  have asks : AsksFirst ((creates content (.links beside)).action target)
      (.disk (.link (target.parent.child beside) target)) (.ok ())
      ((creates content (.syncs beside)).action target) := ⟨_, rfl, rfl⟩
  exact asks.proceeds (by trivial) (by rw [Machine.answer, Disk.answer, links]; rfl)

theorem links_discards
    (links : machine.disk.addLink (target.parent.child beside) target = .error .exists) :
    Proceeds (program target) (creates content (.links beside)) machine
      (creates content (.discards beside false)) machine := by
  have asks : AsksFirst ((creates content (.links beside)).action target)
      (.disk (.link (target.parent.child beside) target)) (.error .exists)
      ((creates content (.discards beside false)).action target) := ⟨_, rfl, rfl⟩
  exact asks.proceeds (by trivial) (by rw [Machine.answer, Disk.answer, links]; rfl)

theorem syncs_discards :
    Proceeds (program target) (creates content (.syncs beside)) machine
      (creates content (.discards beside true)) machine := by
  have asks : AsksFirst ((creates content (.syncs beside)).action target)
      (.disk (.syncDirectory target.parent)) (.ok ())
      ((creates content (.discards beside true)).action target) := ⟨_, rfl, rfl⟩
  exact asks.proceeds (by trivial) rfl

theorem discards_ended {won : Bool}
    (removes : machine.disk.unlink (target.parent.child beside) = .ok disk) :
    Proceeds (program target) (creates content (.discards beside won)) machine
      (creates content (.ended won)) { machine with disk } := by
  have asks : AsksFirst ((creates content (.discards beside won)).action target)
      (.disk (.unlink (target.parent.child beside))) (.ok ())
      ((creates content (.ended won)).action target) := by
    cases won <;> exact ⟨_, rfl, rfl⟩
  exact asks.proceeds (by trivial) (by rw [Machine.answer, Disk.answer, removes]; rfl)

theorem reads_told {content? : Option String}
    (found : machine.disk.read target = content?.elim (.error .noEntry) .ok) :
    Proceeds (program target) reads machine (told content?) machine := by
  have asks : AsksFirst (Stage.reads.action target) (.disk (.read target))
      (content?.elim (.error .noEntry) .ok) ((told content?).action target) := by
    cases content? <;> exact ⟨_, rfl, rfl⟩
  exact asks.proceeds (by trivial) (by rw [Machine.answer, Disk.answer, found]; rfl)

end

end Stage

/-! ## Room for temporary names -/

/-- How many bytes a temporary name is longer than the name of the file. -/
def temporaryRoom : Nat := 42

theorem utf8ByteSize_temporaryName (name : String) (number : Nat) :
    (temporaryName name (Machine.freshName number)).utf8ByteSize
      = name.utf8ByteSize + temporaryRoom := by
  have fresh := utf8ByteSize_of_isNameChar (isNameChar_freshName number)
  rw [String.ofList_toList, length_freshName] at fresh
  have parts : ".".utf8ByteSize = 1 ∧ ".tmp".utf8ByteSize = 4 := by decide
  simp only [temporaryName, String.utf8ByteSize_append, fresh, parts, temporaryRoom]
  omega

theorem temporaryName_inj {name first second : String}
    (same : temporaryName name first = temporaryName name second) : first = second := by
  simpa [temporaryName, String.append_left_inj, String.append_right_inj] using same

/-- A name in a directory is so short that there is room for temporary names beside it. -/
structure Roomy (directory : Path) (last : String) : Prop where
  plain : Plain last
  isPath : Disk.checkPath (directory.child last) = .ok ()
  short : last.utf8ByteSize + temporaryRoom ≤ Disk.maxNameBytes
  room : (Path.text (directory.child last)).utf8ByteSize + temporaryRoom ≤ Disk.maxPathBytes

namespace Roomy

variable {directory : Path} {last : String} (roomy : Roomy directory last) (number : Nat)
include roomy

theorem plain_beside : Plain (temporaryName last (Machine.freshName number)) := by
  have size := utf8ByteSize_temporaryName last number
  have differs {other : String} (few : other.utf8ByteSize < temporaryRoom) :
      temporaryName last (Machine.freshName number) ≠ other := by
    rintro rfl
    omega
  have letters {character : Char} (notName : Collection.isNameChar character = false)
      (notLast : character ∉ last.toList) :
      character ∉ (temporaryName last (Machine.freshName number)).toList := by
    rw [temporaryName_eq, String.toList_ofList]
    have notFresh : character ∉ (Machine.freshName number).toList := fun member => by
      rw [isNameChar_freshName number character member] at notName
      cases notName
    have notPoint : character ≠ '.' := by rintro rfl; cases notName
    have ending : ∀ character ∈ ".tmp".toList, Collection.isNameChar character = true :=
      isNameChar_of_all (by decide)
    have notEnding : character ∉ ".tmp".toList := fun member => by
      rw [ending character member] at notName
      cases notName
    simp only [List.mem_cons, List.mem_append, not_or]
    exact ⟨notPoint, notLast, notPoint, notFresh, notEnding⟩
  exact ⟨differs (by decide), differs (by decide), differs (by decide), size ▸ roomy.short,
    letters (by decide) roomy.plain.noSolidus, letters (by decide) roomy.plain.noZero⟩

theorem isPath_beside :
    Disk.checkPath (directory.trimmed ++ [temporaryName last (Machine.freshName number)])
      = .ok () := by
  refine Path.checkPath_sibling roomy.isPath (roomy.plain_beside number) ?_
  have room := roomy.room
  rw [Path.child] at room
  rw [utf8ByteSize_temporaryName]
  omega

end Roomy

/-! ## What lies in the directory meanwhile -/

/-- Creations contend for the name of the file, under temporary names of their own. -/
def contest (last : String) : Contest Stage (Option Entry) where
  prize := last
  fresh number := temporaryName last (Machine.freshName number)
  own? := Stage.beside?
  holds := Stage.Holds
  won? := Stage.won?
  vacant found := found = none
  taken := Stage.Takes
  fresh_ne _ := temporaryName_ne last _
  fresh_inj few few' same := freshName_inj few few' (temporaryName_inj same)
  not_vacant := by
    rintro (_ | _ | _) found taken rfl
    · obtain ⟨_, there⟩ := taken
      cases there
    all_goals exact taken

/-- The temporary name and the number of the file that a program is about to write to. -/
def Stage.written? : Stage → Option (String × Nat)
  | creates _ (.writes beside handle) => some (beside, handle)
  | _ => none

/-- The file with a number is found under one name at most. -/
def Alone (files : String → Option Entry) (beside : String) (handle : Nat) : Prop :=
  ∀ name entry, files name = some entry → entry.identity? = some handle → name = beside

/-- A file that a program is about to write to is a new one, found under its temporary name only. -/
def Sole (origin : Disk) (stages : Nat → Option Stage) (files : String → Option Entry) : Prop :=
  ∀ place stage beside handle, stages place = some stage → stage.written? = some (beside, handle) →
    origin.nextIdentity ≤ handle ∧ Alone files beside handle

/-- Who has found a content has found that of the file that is there; one who reads late cannot but
find it. -/
structure Seen (last : String) (late : Option Nat) (stages : Nat → Option Stage)
    (files : String → Option Entry) : Prop where
  found : ∀ place content, stages place = some (.told (some content)) →
    ∃ identity, files last = some (.file identity content)
  late : ∀ place ∈ late, files last ≠ none ∧ stages place ≠ some (.told none)

section

variable {origin : Disk} {last : String} {late : Option Nat} {stages : Nat → Option Stage}
  {files files' : String → Option Entry} {place : Nat} {stage' : Stage}

theorem Sole.update (sole : Sole origin stages files)
    (own : ∀ beside handle, stage'.written? = some (beside, handle) →
      origin.nextIdentity ≤ handle ∧ Alone files' beside handle)
    (others : ∀ other stage beside handle, other ≠ place → stages other = some stage →
      stage.written? = some (beside, handle) → Alone files beside handle →
      Alone files' beside handle) :
    Sole origin (Function.update stages place (some stage')) files' := by
  intro other stage beside handle isStage writes
  by_cases here : other = place
  · rw [here, Function.update_self] at isStage
    cases isStage
    exact own beside handle writes
  · rw [Function.update_of_ne here] at isStage
    obtain ⟨isNew, alone⟩ := sole other stage beside handle isStage writes
    exact ⟨isNew, others other stage beside handle here isStage writes alone⟩

/-- No file is found under another name than before. -/
theorem Sole.same (sole : Sole origin stages files) (idle : stage'.written? = none)
    (fewer : ∀ name entry, files' name = some entry →
      ∃ entry', files name = some entry' ∧ entry'.identity? = entry.identity?) :
    Sole origin (Function.update stages place (some stage')) files' := by
  refine sole.update (fun beside handle writes => ?_) fun _ _ _ _ _ _ _ alone name entry found => ?_
  · rw [idle] at writes
    cases writes
  · obtain ⟨entry', found', same⟩ := fewer name entry found
    rw [← same]
    exact alone name entry' found'

theorem Seen.same (seen : Seen last late stages files)
    (tells : ∀ content, stage' = .told (some content) →
      ∃ identity, files last = some (.file identity content))
    (absent : stage' = .told none → files last = none) (same : files' last = files last) :
    Seen last late (Function.update stages place (some stage')) files' := by
  refine ⟨fun other content isTold => ?_, fun other isLate => ⟨same ▸ (seen.late other isLate).1, ?_⟩⟩
  · by_cases here : other = place
    · rw [here, Function.update_self] at isTold
      exact same ▸ tells content (Option.some.inj isTold)
    · rw [Function.update_of_ne here] at isTold
      exact same ▸ seen.found other content isTold
  · obtain ⟨there, notTold⟩ := seen.late other isLate
    by_cases here : other = place
    · rw [here, Function.update_self]
      exact fun isTold => there (absent (Option.some.inj isTold))
    · rwa [Function.update_of_ne here]

/-- A creation goes on. -/
theorem Seen.creates (seen : Seen last late stages files) {content : String} {phase : Phase}
    (same : files' last = files last) :
    Seen last late (Function.update stages place (some (.creates content phase))) files' :=
  seen.same (fun _ isTold => nomatch isTold) (fun isTold => nomatch isTold) same

/-- While there is no file nobody has found one. -/
theorem Seen.appears (seen : Seen last late stages files) (absent : files last = none)
    (silent : ∀ content?, stage' ≠ .told content?) :
    Seen last late (Function.update stages place (some stage')) files' := by
  refine ⟨fun other content isTold => ?_, fun other isLate => ?_⟩
  · by_cases here : other = place
    · rw [here, Function.update_self] at isTold
      exact absurd (Option.some.inj isTold) (silent _)
    · rw [Function.update_of_ne here] at isTold
      obtain ⟨_, there⟩ := seen.found other content isTold
      rw [absent] at there
      cases there
  · exact absurd absent (seen.late other isLate).1

end

/-- What lies in a directory while all have come to some stages. -/
structure Held (origin : Disk) (home : Place) (last : String) (first : Nat) (late : Option Nat)
    (stages : Nat → Option Stage) (files : String → Option Entry) (machine : Machine) : Prop where
  folder : Folder origin home files machine.disk
  later : first ≤ machine.names
  spread : (contest last).Spread (origin.filesAt home) first machine.names stages files
  settled : (contest last).Settled stages files
  sole : Sole origin stages files
  seen : Seen last late stages files

/-- All have come to some stages, over a directory that is made or one that is yet to be. -/
inductive Racing (made : Disk) (directory : Path) (home : Place) (last : String) (first : Nat)
    (late : Option Nat) (stages : Nat → Option Stage) (machine : Machine) : Prop
  | made {files : String → Option Entry} (held : Held made home last first late stages files machine)
  | unmade (unbuilt : Unbuilt machine.disk directory home)
      (makes : machine.disk.makeDirectories directory = (.ok none, made))
      (later : first ≤ machine.names) (early : ∀ place stage, stages place = some stage →
        (∃ content, stage = .creates content .ensures) ∨ stage = .reads ∨ stage = .told none)
      (nobody : late = none)

/-- A stage goes on to another one, and all is as it has to be. -/
def Goes (made : Disk) (directory : Path) (home : Place) (last : String) (first : Nat)
    (late : Option Nat) (stages : Nat → Option Stage) (machine : Machine) (place : Nat)
    (stage : Stage) : Prop :=
  ∃ stage' machine',
    Proceeds (Stage.program (directory.child last)) stage machine stage' machine'
      ∧ stage'.deed = stage.deed ∧ (machine'.names ≤ Nat.pow 10 Machine.freshNameLength →
        Racing made directory home last first late (Function.update stages place (some stage'))
          machine')

section

variable {origin : Disk} {directory : Path} {home : Place} {last : String} {first : Nat}
  {late : Option Nat} {stages : Nat → Option Stage} {files files' : String → Option Entry}
  {machine machine' : Machine} {place : Nat} {content : String} {phase phase' : Phase}
  {beside : String} {handle : Nat}

/-- A creation goes on with the temporary name that it uses, and nobody else is concerned. -/
theorem Held.goesOn (held : Held origin home last first late stages files machine)
    (isStage : stages place = some (.creates content phase))
    (folder : Folder origin home files' machine'.disk) (names : machine'.names = machine.names)
    (uses : phase'.beside? = phase.beside?) (knows : phase'.won? = phase.won?)
    (idle : (Stage.creates content phase').written? = none)
    (holds : ∀ beside, phase.beside? = some beside → phase'.Holds content (files' beside))
    (untouched : ∀ name, phase.beside? ≠ some name → files' name = files name)
    (fewer : ∀ beside entry, phase.beside? = some beside → files' beside = some entry →
      ∃ entry', files beside = some entry' ∧ entry'.identity? = entry.identity?) :
    Held origin home last first late
      (Function.update stages place (some (.creates content phase'))) files' machine' := by
  have prize : files' last = files last := untouched last fun isOwn =>
    held.spread.own_ne ((Contest.ownAt_of_isStage isStage).trans isOwn) rfl
  refine ⟨folder, names ▸ held.later, names ▸ held.spread.same isStage uses holds
      (fun name _ => untouched name), held.settled.same isStage knows (fun _ => id) prize,
    held.sole.same idle fun name entry found => ?_,
    held.seen.creates prize⟩
  by_cases isOwn : phase.beside? = some name
  · exact fewer name entry isOwn found
  · exact ⟨entry, untouched name isOwn ▸ found, rfl⟩

/-- A file that is about to be written to is empty and lies under the temporary name. -/
theorem Stage.of_written {stage : Stage} (writes : stage.written? = some (beside, handle)) :
    stage.beside? = some beside
      ∧ ∀ found, stage.Holds found → found = some (.file handle "") := by
  rcases stage with ⟨content, _ | _ | _ | _ | _ | _ | _ | _ | _ | _⟩ | _ | _ <;> cases writes
  exact ⟨rfl, fun _ holds => holds⟩

theorem exists_file_of_takes {stage : Stage} {found : Option Entry} (takes : stage.Takes found) :
    ∃ identity content, found = some (.file identity content) := by
  cases stage with
  | creates content phase => exact ⟨takes.choose, content, takes.choose_spec⟩
  | reads => exact takes.elim
  | told content? => exact takes.elim

/-! ### Requests that do not concern the directory -/

section

variable (held : Held origin home last first late stages files machine)
include held

/-- What is written comes to the file under the temporary name, and to no other. -/
theorem goes_writes (sound : Sound origin)
    (isStage : stages place = some (.creates content (.writes beside handle))) :
    Goes origin directory home last first late stages machine place
      (.creates content (.writes beside handle)) := by
  have isFile : files beside = some (.file handle "") := held.spread.holds place _ beside isStage rfl
  obtain ⟨isNew, alone⟩ := held.sole place _ beside handle isStage rfl
  refine ⟨_, _, Stage.writes_flushes, rfl, fun _ => .made (held.goesOn isStage
    (held.folder.write sound isFile isNew alone content) rfl rfl rfl rfl (fun own uses => ?_)
    (fun name notOwn => ?_) fun own entry uses found => ?_)⟩
  · cases uses
    exact Function.update_self ..
  · exact Function.update_of_ne (fun same => notOwn (congrArg some same.symm)) ..
  · cases uses
    rw [Function.update_self] at found
    cases found
    exact ⟨_, isFile, rfl⟩

theorem goes_flushes (isStage : stages place = some (.creates content (.flushes beside handle))) :
    Goes origin directory home last first late stages machine place
      (.creates content (.flushes beside handle)) := by
  have isFile := held.spread.holds place _ beside isStage rfl
  refine ⟨_, _, Stage.flushes_closes, rfl, fun _ => .made (held.goesOn isStage held.folder rfl rfl rfl rfl
    (fun own uses => ?_) (fun _ _ => rfl) fun _ entry _ found => ⟨entry, found, rfl⟩)⟩
  cases uses
  exact isFile

theorem goes_closes (isStage : stages place = some (.creates content (.closes beside handle))) :
    Goes origin directory home last first late stages machine place
      (.creates content (.closes beside handle)) := by
  have isFile := held.spread.holds place _ beside isStage rfl
  refine ⟨_, _, Stage.closes_links, rfl, fun _ => .made (held.goesOn isStage held.folder rfl rfl rfl rfl
    (fun own uses => ?_) (fun _ _ => rfl) fun _ entry _ found => ⟨entry, found, rfl⟩)⟩
  cases uses
  exact ⟨handle, isFile⟩

theorem goes_syncs (isStage : stages place = some (.creates content (.syncs beside))) :
    Goes origin directory home last first late stages machine place
      (.creates content (.syncs beside)) := by
  have isFile := held.spread.holds place _ beside isStage rfl
  refine ⟨_, _, Stage.syncs_discards, rfl, fun _ => .made (held.goesOn isStage held.folder rfl rfl rfl rfl
    (fun own uses => ?_) (fun _ _ => rfl) fun _ entry _ found => ⟨entry, found, rfl⟩)⟩
  cases uses
  exact isFile

end

/-! ### Requests that do -/

variable (roomy : Roomy directory last) (standing : Standing origin directory home)
include roomy

theorem name_eq : (directory.child last).name = last :=
  Path.name_concat _ roomy.plain.nonempty

theorem goes_draws (held : Held origin home last first late stages files machine)
    (isStage : stages place = some (.creates content .draws))
    (unused : ∀ number, first ≤ number → number < Nat.pow 10 Machine.freshNameLength →
      origin.filesAt home (temporaryName last (Machine.freshName number)) = none) :
    Goes origin directory home last first late stages machine place (.creates content .draws) := by
  refine ⟨_, _, Stage.draws_opens, rfl, fun few => ?_⟩
  rw [name_eq roomy]
  exact .made ⟨held.folder, Nat.le_succ_of_le held.later,
    held.spread.draws isStage rfl held.later few rfl (unused _ held.later few),
    held.settled.same isStage rfl (fun _ => id) rfl,
    held.sole.same rfl fun _ entry found => ⟨entry, found, rfl⟩,
    held.seen.creates rfl⟩

theorem parent_eq (resolved : Path.Resolved directory) :
    (directory.child last).parent = directory := by
  have trimmed := Path.trimmed_concat directory.trimmed roomy.plain.nonempty
  rw [Path.parent, Path.child, trimmed, List.dropLast_concat, Path.orTop]
  rcases Path.eq_top_or_trimmed_eq resolved with rfl | same
  · rfl
  · rw [same, if_neg resolved.nonempty]

variable (held : Held origin home last first late stages files machine)
include standing held

/-- Calls can be made on the temporary name that is in use. -/
theorem Held.callable (isStage : stages place = some (.creates content phase))
    (uses : phase.beside? = some beside) :
    Plain beside ∧ Disk.checkPath (directory.trimmed ++ [beside]) = .ok ()
      ∧ (directory.child last).parent.child beside = directory.trimmed ++ [beside] := by
  obtain ⟨number, _, _, rfl⟩ :=
    held.spread.drawn place beside ((Contest.ownAt_of_isStage isStage).trans uses)
  exact ⟨roomy.plain_beside number, roomy.isPath_beside number, by
    rw [parent_eq roomy standing.resolved, Path.child]⟩

theorem goes_ensures (isStage : stages place = some (.creates content .ensures)) :
    Goes origin directory home last first late stages machine place
      (.creates content .ensures) := by
  have isParent := parent_eq roomy standing.resolved
  have makes := held.folder.makeDirectories standing
  refine ⟨_, _, Stage.ensures_draws (isParent.symm ▸ standing.resolved.nonempty)
    (isParent.symm ▸ makes), rfl, fun _ => .made (held.goesOn isStage held.folder rfl rfl rfl rfl
      (fun _ uses => nomatch uses) (fun _ _ => rfl) fun _ _ uses => nomatch uses)⟩

/-- The file that is opened is a new one. -/
theorem goes_opens (isStage : stages place = some (.creates content (.opens beside))) :
    Goes origin directory home last first late stages machine place
      (.creates content (.opens beside)) := by
  obtain ⟨plain, isPath, isBeside⟩ := held.callable roomy standing isStage rfl
  have notLast : beside ≠ last := held.spread.own_ne (Contest.ownAt_of_isStage isStage)
  have free : files beside = none := held.spread.holds place _ beside isStage rfl
  have opens := held.folder.openEmpty standing plain isPath free
  have untouched (name : String) (differs : name ≠ beside) : Function.update files beside
      (some (.file machine.disk.nextIdentity "")) name = files name :=
    Function.update_of_ne differs ..
  refine ⟨_, _, Stage.opens_writes (isBeside ▸ opens), rfl, fun _ => .made ⟨held.folder.addFile free,
    held.later, held.spread.same isStage rfl (fun own isOwn => ?_) fun name _ notOwn => ?_,
    held.settled.same isStage rfl (fun _ => id) (untouched last notLast.symm),
    held.sole.update (fun _ _ writes => ?_)
      fun other stage beside' handle' _ isOther writes alone name entry found isIdentity => ?_,
    held.seen.creates (untouched last notLast.symm)⟩⟩
  · cases isOwn
    exact Function.update_self ..
  · exact untouched name fun same => notOwn (congrArg some same.symm)
  · cases writes
    refine ⟨held.folder.grown, fun name entry found isIdentity => ?_⟩
    by_contra differs
    rw [untouched name differs] at found
    exact absurd (held.folder.lt_nextIdentity found isIdentity) (Nat.lt_irrefl _)
  · obtain ⟨isOwn, empty⟩ := Stage.of_written writes
    have isFile := empty _ (held.spread.holds other stage beside' isOther isOwn)
    have isOld := held.folder.lt_nextIdentity isFile rfl
    by_cases here : name = beside
    · rw [here, Function.update_self] at found
      cases found
      cases isIdentity
      exact absurd isOld (Nat.lt_irrefl _)
    · rw [untouched name here] at found
      exact alone name entry found isIdentity

/-- The file is linked to its place where nothing is, and no other. -/
theorem goes_links (isStage : stages place = some (.creates content (.links beside))) :
    Goes origin directory home last first late stages machine place
      (.creates content (.links beside)) := by
  obtain ⟨plain, isPath, isBeside⟩ := held.callable roomy standing isStage rfl
  have isOwn : (contest last).ownAt stages place = some beside := Contest.ownAt_of_isStage isStage
  obtain ⟨identity, isFile⟩ := held.spread.holds place _ beside isStage rfl
  have links := held.folder.addLink standing roomy.plain roomy.isPath plain isPath isFile
  rcases held.settled with ⟨unknown, absent⟩ | ⟨isWinner, only, taken⟩
  · have free : files last = none := absent
    rw [free, if_neg (by simp)] at links
    have folder := held.folder.put (held.folder.missing free)
      (show ∀ identity' ∈ Entry.identity? (.file identity content),
          identity' < machine.disk.nextIdentity by
        rintro _ ⟨⟩
        exact held.folder.lt_nextIdentity isFile rfl)
    have untouched (name : String) (differs : name ≠ last) : Function.update files last
        (some (.file identity content)) name = files name :=
      Function.update_of_ne differs ..
    refine ⟨_, _, Stage.links_syncs (isBeside ▸ links), rfl, fun _ => .made ⟨folder, held.later,
      held.spread.same isStage rfl (fun own uses => ?_) fun name notLast _ => untouched name notLast,
      (Contest.Settled.nobody unknown absent).wins rfl absent ⟨identity, Function.update_self ..⟩,
      held.sole.update (fun _ _ writes => nomatch writes)
        fun other stage beside' handle' notHere isOther writes alone name entry found isIdentity => ?_,
      held.seen.appears free fun _ isTold => nomatch isTold⟩⟩
    · cases uses
      exact ⟨identity, (untouched beside (held.spread.own_ne isOwn)).trans isFile⟩
    · by_cases here : name = last
      · rw [here, Function.update_self] at found
        cases found
        cases isIdentity
        have same := alone beside _ isFile rfl
        exact absurd (held.spread.apart other place beside (same ▸ (Contest.ownAt_of_isStage
          isOther).trans (Stage.of_written writes).1) isOwn) notHere
      · rw [untouched name here] at found
        exact alone name entry found isIdentity
  · obtain ⟨_, _, isThere⟩ := exists_file_of_takes taken
    have isThere : files last = _ := isThere
    rw [isThere, if_pos (by simp)] at links
    refine ⟨_, _, Stage.links_discards (isBeside ▸ links), rfl, fun _ => .made ⟨held.folder, held.later,
      held.spread.same isStage rfl (fun own uses => ?_) fun _ _ _ => rfl,
      (Contest.Settled.winner isWinner only taken).loses isStage rfl rfl
        ((contest last).not_vacant taken),
      held.sole.same rfl fun _ entry found => ⟨entry, found, rfl⟩,
      held.seen.creates rfl⟩⟩
    cases uses
    exact ⟨identity, isFile⟩

/-- The temporary file is removed. -/
theorem goes_discards {won : Bool}
    (isStage : stages place = some (.creates content (.discards beside won)))
    (unused : origin.filesAt home beside = none) :
    Goes origin directory home last first late stages machine place
      (.creates content (.discards beside won)) := by
  obtain ⟨plain, isPath, isBeside⟩ := held.callable roomy standing isStage rfl
  have notLast : beside ≠ last := held.spread.own_ne (Contest.ownAt_of_isStage isStage)
  obtain ⟨identity, isFile⟩ := held.spread.holds place _ beside isStage rfl
  have removes := held.folder.unlink standing plain isPath isFile
  have untouched (name : String) (differs : name ≠ beside) :
      Function.update files beside none name = files name :=
    Function.update_of_ne differs ..
  have gone : Function.update files beside none beside = none := Function.update_self ..
  refine ⟨_, _, Stage.discards_ended (isBeside ▸ removes), rfl, fun _ => .made
    ⟨held.folder.without standing.rooted unused, held.later,
      held.spread.drops isStage rfl rfl (gone.trans unused.symm) untouched,
      held.settled.same isStage rfl (fun _ => id) (untouched last notLast.symm),
      held.sole.same rfl fun name entry found => ?_,
      held.seen.creates (untouched last notLast.symm)⟩⟩
  by_cases here : name = beside
  · rw [here, gone] at found
    cases found
  · exact ⟨entry, untouched name here ▸ found, rfl⟩

/-- Who reads finds nothing or the whole content of the winner. -/
theorem goes_reads (isStage : stages place = some .reads) :
    Goes origin directory home last first late stages machine place .reads := by
  have tells {content? : Option String}
      (reads : machine.disk.read (directory.child last) = content?.elim (.error .noEntry) .ok)
      (found : ∀ content, content? = some content →
        ∃ identity, files last = some (.file identity content))
      (absent : content? = none → files last = none) :
      Goes origin directory home last first late stages machine place .reads := by
    refine ⟨_, _, Stage.reads_told reads, rfl, fun _ => .made ⟨held.folder, held.later,
      held.spread.idle isStage rfl rfl fun _ _ => rfl,
      held.settled.same isStage rfl (fun _ => id) rfl,
      held.sole.same rfl fun _ entry found => ⟨entry, found, rfl⟩,
      held.seen.same (fun content isTold => found content ?_) (fun isTold => absent ?_) rfl⟩⟩
    · exact Stage.told.inj isTold
    · exact Stage.told.inj isTold
  rcases held.settled with ⟨_, absent⟩ | ⟨_, _, taken⟩
  · have free : files last = none := absent
    exact @tells none (held.folder.read_free standing roomy.plain roomy.isPath free)
      (fun _ same => nomatch same) fun _ => free
  · obtain ⟨identity, content, isThere⟩ := exists_file_of_takes taken
    refine @tells (some content)
      (held.folder.read_file standing roomy.plain roomy.isPath isThere)
      (fun other same => ⟨identity, ?_⟩) fun same => nomatch same
    cases same
    exact isThere

end

/-! ## Every request -/

/-- A directory that leaves room for a name under which nothing lies, and under the temporary names
beside it nothing either. -/
structure Cleared (made : Disk) (directory : Path) (home : Place) (last : String) (first : Nat) :
    Prop where
  roomy : Roomy directory last
  sound : Sound made
  standing : Standing made directory home
  free : made.filesAt home last = none
  unused : ∀ number, first ≤ number → number < Nat.pow 10 Machine.freshNameLength →
    made.filesAt home (temporaryName last (Machine.freshName number)) = none

section

variable {made : Disk} {directory : Path} {home : Place} {last : String} {first : Nat}
  {late : Option Nat} {stages : Nat → Option Stage} {machine : Machine} {place : Nat}
  {stage : Stage}

/-- While no creation has drawn a name all is as it was. -/
theorem Held.start (sound : Sound made) (free : made.filesAt home last = none)
    (later : first ≤ machine.names) (disk : machine.disk = made)
    (early : ∀ place stage, stages place = some stage →
      (∃ content, stage = .creates content .ensures) ∨ stage = .reads ∨ stage = .told none) :
    Held made home last first none stages (made.filesAt home) machine := by
  have idle : ∀ place stage, stages place = some stage →
      (contest last).own? stage = none ∧ (contest last).won? stage = none := by
    intro place stage isStage
    rcases early place stage isStage with ⟨_, rfl⟩ | rfl | rfl <;> exact ⟨rfl, rfl⟩
  obtain ⟨spread, settled⟩ := Contest.start idle free
  refine ⟨disk ▸ .start sound home, later, spread, settled, fun other stage _ _ isStage writes => ?_,
    fun other content isTold => ?_, fun _ isLate => nomatch isLate⟩
  · rcases early other stage isStage with ⟨_, rfl⟩ | rfl | rfl <;> cases writes
  · rcases early other _ isTold with ⟨_, same⟩ | same | same <;> cases same

variable (clear : Cleared made directory home last first)
include clear

/-- Over a directory that is yet to be made a creation makes it, and who reads finds nothing. -/
theorem goes_unmade (unbuilt : Unbuilt machine.disk directory home)
    (makes : machine.disk.makeDirectories directory = (.ok none, made))
    (later : first ≤ machine.names) (early : ∀ place stage, stages place = some stage →
      (∃ content, stage = .creates content .ensures) ∨ stage = .reads ∨ stage = .told none)
    (isStage : stages place = some stage) :
    stage = .told none ∨ Goes made directory home last first none stages machine place stage := by
  rcases early place stage isStage with ⟨content, rfl⟩ | rfl | rfl
  · have isParent := parent_eq clear.roomy unbuilt.resolved
    have held : Held made home last first none stages (made.filesAt home)
        { machine with disk := made } := .start clear.sound clear.free later rfl early
    refine .inr ⟨_, _, Stage.ensures_draws (isParent.symm ▸ unbuilt.resolved.nonempty)
      (isParent.symm ▸ makes), rfl, fun _ => .made (held.goesOn isStage held.folder rfl rfl rfl rfl
        (fun _ uses => nomatch uses) (fun _ _ => rfl) fun _ _ uses => nomatch uses)⟩
  · have reads : machine.disk.read (directory.child last) = .error .noEntry :=
      unbuilt.read (by simpa using clear.roomy.plain) clear.roomy.isPath
    refine .inr ⟨.told none, _, Stage.reads_told reads, rfl, fun _ => .unmade unbuilt makes later
      (fun other stage isOther => ?_) rfl⟩
    by_cases here : other = place
    · rw [here, Function.update_self] at isOther
      exact .inr (.inr (Option.some.inj isOther).symm)
    · rw [Function.update_of_ne here] at isOther
      exact early other stage isOther
  · exact .inl rfl

/-- **Every stage but the last ones goes on**, and all is as it has to be. -/
theorem Racing.goes (racing : Racing made directory home last first late stages machine)
    (few : machine.names ≤ Nat.pow 10 Machine.freshNameLength)
    (isStage : stages place = some stage) :
    (∃ content won, stage = .creates content (.ended won)) ∨ (∃ content?, stage = .told content?)
      ∨ Goes made directory home last first late stages machine place stage := by
  cases racing with
  | unmade unbuilt makes later early nobody =>
      subst nobody
      rcases goes_unmade clear unbuilt makes later early isStage with rfl | goes
      · exact .inr (.inl ⟨none, rfl⟩)
      · exact .inr (.inr goes)
  | made held =>
      rcases stage with ⟨content, phase⟩ | _ | content?
      · cases phase with
        | ensures => exact .inr (.inr (goes_ensures clear.roomy clear.standing held isStage))
        | draws => exact .inr (.inr (goes_draws clear.roomy held isStage clear.unused))
        | opens beside => exact .inr (.inr (goes_opens clear.roomy clear.standing held isStage))
        | writes beside handle => exact .inr (.inr (goes_writes held clear.sound isStage))
        | flushes beside handle => exact .inr (.inr (goes_flushes held isStage))
        | closes beside handle => exact .inr (.inr (goes_closes held isStage))
        | links beside => exact .inr (.inr (goes_links clear.roomy clear.standing held isStage))
        | syncs beside => exact .inr (.inr (goes_syncs held isStage))
        | discards beside won =>
            obtain ⟨number, after, before, isBeside⟩ :=
              held.spread.drawn place beside (Contest.ownAt_of_isStage isStage)
            have isUnused := clear.unused number after (Nat.lt_of_lt_of_le before few)
            exact .inr (.inr (goes_discards clear.roomy clear.standing held isStage (isBeside ▸ isUnused)))
        | ended won => exact .inl ⟨content, won, rfl⟩
      · exact .inr (.inr (goes_reads clear.roomy clear.standing held isStage))
      · exact .inr (.inl ⟨content?, rfl⟩)

end

/-! ## What becomes of all -/

/-- A directory that is there, or one that can be created. -/
inductive Ground (disk : Disk) (directory : Path) (home : Place) : Prop
  | standing (sound : Sound disk) (standing : Standing disk directory home)
  | unbuilt (unbuilt : Unbuilt disk directory home)

/-- A name in such a directory, under which nothing lies and beside which there is room for
temporary files. -/
structure FreeName (machine : Machine) (directory : Path) (home : Place) (last : String) :
    Prop where
  roomy : Roomy directory last
  ground : Ground machine.disk directory home
  free : machine.disk.entry? (home ++ [last]) = none
  unused : ∀ number, machine.names ≤ number → number < Nat.pow 10 Machine.freshNameLength →
    machine.disk.entry? (home ++ [temporaryName last (Machine.freshName number)]) = none

/-- What can be told when something has been done with a file of which `found?` is the content. -/
def Deed.Tells (target : Path) (found? : Option String) : Deed → Except Failure Told → Prop
  | create _, result => result = .ok .created ∨ result = .error (.fileExists target.text)
  | read, result => result = .ok (.found none)
      ∨ found?.isSome ∧ result = .ok (.found found?)

/-- What becomes of deeds with one file in a pool: those who create it do, or are told that there is
one already, and those who read it get nothing or all of it.  The file is absent, or it has the
content of one of the deeds; and when all have ended one of the creations has created it and nothing
else has changed. -/
structure CreatesOnce (deeds : List Deed) (machine : Machine) (target : Path) (place : Place)
    (pool : Pool (Except Failure Told)) : Prop where
  tells : ∀ (index : Nat) (deed : Deed) (result : Except Failure Told),
    deeds[index]? = some deed → pool.program? index = some (.done result) →
      deed.Tells target (pool.machine.disk.read target).toOption result
  whole : pool.machine.disk.entry? place = none
    ∨ ∃ identity content, Deed.create content ∈ deeds
      ∧ pool.machine.disk.entry? place = some (.file identity content)
  once : ∀ results : List (Except Failure Told), pool.results? = some results →
    (∃ content, Deed.create content ∈ deeds) →
      ∃ (winner : Nat) (content : String), deeds[winner]? = some (.create content)
        ∧ (∀ index : Nat, results[index]? = some (.ok .created) ↔ index = winner)
        ∧ pool.machine.disk.read target = .ok content
        ∧ ∀ other, other ≠ place → pool.machine.disk.entry? other
          = (machine.withDirectory target.parent).disk.entry? other

/-- What is told at the end. -/
def Stage.result? (target : Path) : Stage → Option (Except Failure Told)
  | creates _ (.ended true) => some (.ok .created)
  | creates _ (.ended false) => some (.error (.fileExists target.text))
  | told content? => some (.ok (.found content?))
  | _ => none

section

variable {target : Path} {stage : Stage} {result : Except Failure Told}
  (tells : stage.result? target = some result)
include tells

theorem Stage.beside_of_result : stage.beside? = none := by
  rcases stage with ⟨content, _ | _ | _ | _ | _ | _ | _ | _ | _ | _⟩ | _ | _ <;>
    first | rfl | cases tells

theorem Stage.won_iff_of_result : stage.won? = some true ↔ result = .ok .created := by
  rcases stage with ⟨content, _ | _ | _ | _ | _ | _ | _ | _ | _ | _ | _⟩ | _ | _ <;>
    cases tells <;> simp [Stage.won?, Phase.won?]

theorem Stage.told_of_result {content? : Option String} (isTold : result = .ok (.found content?)) :
    stage = .told content? := by
  subst isTold
  rcases stage with ⟨content, _ | _ | _ | _ | _ | _ | _ | _ | _ | _ | _⟩ | _ | _ <;> cases tells
  rfl

theorem Stage.won_of_result {content : String} (creates : stage.deed = .create content) :
    stage.won?.isSome := by
  rcases stage with ⟨content, _ | _ | _ | _ | _ | _ | _ | _ | _ | _⟩ | _ | _ <;>
    first | rfl | (cases tells; done) | cases creates

end

section

variable {made : Disk} {directory : Path} {home : Place} {last : String} {first : Nat}
  {late : Option Nat} {stages : Nat → Option Stage} {machine : Machine}

/-- Before anything happens all are at their first stages. -/
theorem FreeName.racing (freeName : FreeName machine directory home last)
    (early : ∀ place stage, stages place = some stage →
      (∃ content, stage = .creates content .ensures) ∨ stage = .reads ∨ stage = .told none) :
    Cleared (machine.withDirectory directory).disk directory home last machine.names
      ∧ Racing (machine.withDirectory directory).disk directory home last machine.names none stages
        machine := by
  obtain ⟨roomy, ground, free, unused⟩ := freeName
  cases ground with
  | standing sound standing =>
      have same : (machine.withDirectory directory).disk = machine.disk := congrArg Prod.snd
        ((Folder.start sound home).makeDirectories standing)
      rw [same]
      exact ⟨⟨roomy, sound, standing, free, unused⟩,
        .made (.start sound free (Nat.le_refl _) rfl early)⟩
  | unbuilt unbuilt =>
      obtain ⟨made, makes, sound, standing, empty⟩ := unbuilt.exists_standing
      have isMade : (machine.withDirectory directory).disk = made := congrArg Prod.snd makes
      rw [isMade]
      exact ⟨⟨roomy, sound, standing, empty [last] (by simp), fun _ _ _ => empty _ (by simp)⟩,
        .unmade unbuilt makes (Nat.le_refl _) early rfl⟩

variable (clear : Cleared made directory home last first)
  (racing : Racing made directory home last first late stages machine)
include clear racing

/-- Nobody has won and nothing is there, or one has won and its file is there. -/
theorem Racing.settled :
    ((∀ index, (contest last).wonAt stages index = none)
        ∧ machine.disk.entry? (home ++ [last]) = none)
      ∨ ∃ winner content phase identity, stages winner = some (.creates content phase)
        ∧ (∀ index, (contest last).wonAt stages index = some true ↔ index = winner)
        ∧ machine.disk.entry? (home ++ [last]) = some (.file identity content)
        ∧ machine.disk.read (directory.child last) = .ok content := by
  cases racing with
  | unmade unbuilt _ _ early =>
      refine .inl ⟨fun index => Option.bind_eq_none_iff.mpr fun stage isStage => ?_,
        unbuilt.free [last]⟩
      rcases early index stage isStage with ⟨_, rfl⟩ | rfl | rfl <;> rfl
  | made held =>
      rcases held.settled with ⟨unknown, absent⟩ | ⟨isWinner, only, taken⟩
      · exact .inl ⟨unknown, (held.folder.inside last).trans absent⟩
      next winner stage =>
        rcases stage with ⟨content, phase⟩ | _ | _
        · obtain ⟨identity, isThere⟩ := taken
          exact .inr ⟨winner, content, phase, identity, isWinner, only,
            (held.folder.inside last).trans isThere,
            held.folder.read_file clear.standing clear.roomy.plain clear.roomy.isPath isThere⟩
        · exact taken.elim
        · exact taken.elim

/-- Who has found a content has found what is there. -/
theorem Racing.found {index : Nat} {content : String}
    (isTold : stages index = some (.told (some content))) :
    (∃ files, Held made home last first late stages files machine ∧ files last ≠ none)
      ∧ machine.disk.read (directory.child last) = .ok content := by
  cases racing with
  | unmade _ _ _ early => rcases early index _ isTold with ⟨_, same⟩ | same | same <;> cases same
  | made held =>
      obtain ⟨identity, isThere⟩ := held.seen.found index content isTold
      exact ⟨⟨_, held, isThere ▸ nofun⟩,
        held.folder.read_file clear.standing clear.roomy.plain clear.roomy.isPath isThere⟩

omit clear in
/-- When nobody uses a temporary name any more, nothing but the file has come to the disk. -/
theorem Racing.elsewhere (ended : ∀ index, (contest last).ownAt stages index = none)
    {winner : Nat} {content : String} {phase : Phase}
    (isWinner : stages winner = some (.creates content phase))
    (won : phase.won?.isSome) {other : Place} (notThere : other ≠ home ++ [last]) :
    machine.disk.entry? other = made.entry? other := by
  cases racing with
  | unmade _ _ _ early =>
      rcases early winner _ isWinner with ⟨_, same⟩ | same | same <;> cases same
      cases won
  | made held =>
      by_cases isInside : ∃ name, other = home ++ [name]
      · obtain ⟨name, rfl⟩ := isInside
        have notLast : name ≠ last := fun same => notThere (same ▸ rfl)
        exact (held.folder.inside name).trans (held.spread.elsewhere name notLast fun index => by
          rw [ended index]
          nofun)
      · exact held.folder.outside other fun name same => isInside ⟨name, same⟩

variable {pool : Pool (Except Failure Told)}
  (stands : Pool.At (Stage.program (directory.child last)) stages pool)
  (few : machine.names ≤ Nat.pow 10 Machine.freshNameLength)
include stands few

/-- What has ended has told what its stage says. -/
theorem Racing.ended {index : Nat} {result : Except Failure Told}
    (isDone : pool.program? index = some (.done result)) :
    ∃ stage, stages index = some stage ∧ stage.result? (directory.child last) = some result := by
  obtain ⟨stage, isStage, isDone⟩ := stands.exists_stage isDone
  refine ⟨stage, isStage, ?_⟩
  rcases racing.goes clear few isStage with ⟨content, won, rfl⟩ | ⟨content?, rfl⟩ | goes
  · cases won <;> exact congrArg some (Program.done.inj isDone)
  · exact congrArg some (Program.done.inj isDone)
  · obtain ⟨_, _, proceeds, _⟩ := goes
    exact absurd isDone (proceeds.not_done result)

end

section

variable {deeds : List Deed} {machine : Machine} {directory : Path} {home : Place} {last : String}
  {late : Option Nat} {stages : Nat → Option Stage} {pool : Pool (Except Failure Told)}

/-- What is known of all stages is known of the pool. -/
theorem Racing.createsOnce
    (clear : Cleared (machine.withDirectory directory).disk directory home last machine.names)
    (racing : Racing (machine.withDirectory directory).disk directory home last machine.names late
      stages pool.machine)
    (deed : ∀ index, (stages index).map Stage.deed = deeds[index]?)
    (stands : Pool.At (Stage.program (directory.child last)) stages pool)
    (few : pool.machine.names ≤ Nat.pow 10 Machine.freshNameLength) :
    CreatesOnce deeds machine (directory.child last) (home ++ [last]) pool := by
  have isDeed {index : Nat} {stage : Stage} (isStage : stages index = some stage) :
      deeds[index]? = some stage.deed := by
    rw [← deed index, isStage, Option.map_some]
  refine ⟨fun index deed' result isIndex isDone => ?_, ?_, fun results areResults creator => ?_⟩
  · obtain ⟨stage, isStage, isResult⟩ := racing.ended clear stands few isDone
    have same := isDeed isStage
    rw [isIndex] at same
    cases same
    rcases stage with ⟨content, phase⟩ | _ | _ | content
    · rcases phase with _ | _ | _ | _ | _ | _ | _ | _ | _ | _ | _ <;> cases isResult
      · exact .inr rfl
      · exact .inl rfl
    · cases isResult
    · cases isResult
      exact .inl rfl
    · cases isResult
      obtain ⟨_, reads⟩ := racing.found clear isStage
      rw [reads]
      exact .inr ⟨rfl, rfl⟩
  · rcases racing.settled clear with ⟨_, absent⟩ | ⟨winner, content, phase, identity, isWinner, _,
      isThere, _⟩
    · exact .inl absent
    · exact .inr ⟨identity, content, List.mem_of_getElem? (isDeed isWinner), isThere⟩
  · have isEnded {index : Nat} {stage : Stage} (isStage : stages index = some stage) :
        ∃ result, stage.result? (directory.child last) = some result
          ∧ results[index]? = some result := by
      obtain ⟨result, _, isResult⟩ := stands.exists_result areResults isStage
      obtain ⟨stage', isStage', tells⟩ := racing.ended clear stands few
        ((Pool.program?_of_results areResults index).trans (congrArg _ isResult))
      rw [isStage] at isStage'
      cases isStage'
      exact ⟨result, tells, isResult⟩
    have unused (index : Nat) : (contest last).ownAt stages index = none := by
      cases isStage : stages index with
      | none => rw [Contest.ownAt, isStage, Option.bind_none]
      | some stage =>
          obtain ⟨_, tells, _⟩ := isEnded isStage
          exact (Contest.ownAt_of_isStage isStage).trans (Stage.beside_of_result tells)
    have created (index : Nat) : (contest last).wonAt stages index = some true
        ↔ results[index]? = some (.ok .created) := by
      constructor
      · intro won
        obtain ⟨stage, isStage, won⟩ := Option.bind_eq_some_iff.mp won
        obtain ⟨result, tells, isResult⟩ := isEnded isStage
        rw [isResult, (Stage.won_iff_of_result tells).mp won]
      · intro isResult
        obtain ⟨stage, isStage, tells⟩ := racing.ended clear stands few
          ((Pool.program?_of_results areResults index).trans (congrArg _ isResult))
        exact (Contest.wonAt_of_isStage isStage).trans ((Stage.won_iff_of_result tells).mpr rfl)
    rcases racing.settled clear with ⟨unknown, _⟩ | ⟨winner, content, phase, _, isWinner, only, _,
      reads⟩
    · obtain ⟨content, isCreator⟩ := creator
      obtain ⟨index, isIndex⟩ := List.mem_iff_getElem?.mp isCreator
      rw [← deed index] at isIndex
      obtain ⟨stage, isStage, isDeed⟩ := Option.map_eq_some_iff.mp isIndex
      obtain ⟨_, tells, _⟩ := isEnded isStage
      have known : ((contest last).wonAt stages index).isSome := by
        rw [Contest.wonAt_of_isStage isStage]
        exact Stage.won_of_result tells isDeed
      rw [unknown] at known
      cases known
    · obtain ⟨_, tells, _⟩ := isEnded isWinner
      refine ⟨winner, content, isDeed isWinner, fun index => (created index).symm.trans (only index),
        reads, fun other notThere => ?_⟩
      rw [parent_eq clear.roomy clear.standing.resolved]
      exact racing.elsewhere unused isWinner (Stage.won_of_result tells rfl) notThere

/-- All go on from their stages, whatever the order. -/
theorem Racing.after
    (clear : Cleared (machine.withDirectory directory).disk directory home last machine.names)
    (racing : Racing (machine.withDirectory directory).disk directory home last machine.names late
      stages pool.machine)
    (deed : ∀ index, (stages index).map Stage.deed = deeds[index]?)
    (stands : Pool.At (Stage.program (directory.child last)) stages pool)
    {schedule : List Nat}
    (few : (pool.after schedule).machine.names ≤ Nat.pow 10 Machine.freshNameLength) :
    ∃ stages', Pool.At (Stage.program (directory.child last)) stages' (pool.after schedule)
      ∧ Racing (machine.withDirectory directory).disk directory home last machine.names late stages'
        (pool.after schedule).machine
      ∧ ∀ index, (stages' index).map Stage.deed = deeds[index]? := by
  obtain ⟨stages', stands', racing', _, deed'⟩ := Pool.At.after
    (fun stages machine' => Racing (machine.withDirectory directory).disk directory home last
        machine.names late stages machine'
      ∧ machine'.names ≤ Nat.pow 10 Machine.freshNameLength
      ∧ ∀ index, (stages index).map Stage.deed = deeds[index]?)
    (fun stages machine' index stage kept isStage => by
      obtain ⟨racing, few, deed⟩ := kept
      rcases racing.goes clear few isStage with ⟨content, won, rfl⟩ | ⟨content?, rfl⟩ | goes
      · cases won <;> exact .inl ⟨_, rfl⟩
      · exact .inl ⟨_, rfl⟩
      · obtain ⟨stage', machine'', proceeds, sameDeed, racing⟩ := goes
        refine .inr ⟨stage', machine'', proceeds, fun few => ⟨racing few, few, fun other => ?_⟩⟩
        by_cases here : other = index
        · rw [here, Function.update_self, ← deed index, isStage, Option.map_some, Option.map_some,
            sameDeed]
        · rw [Function.update_of_ne here, deed other])
    stands ⟨racing, Nat.le_trans (Pool.names_le_after _ schedule) few, deed⟩ few
  exact ⟨stages', stands', racing', deed'⟩

/-- The deeds with a file, in a pool. -/
def contenders (deeds : List Deed) (target : Path) (machine : Machine) :
    Pool (Except Failure Told) :=
  Pool.start (deeds.map (Deed.program target)) machine

/-- At the start all are at their first stages. -/
theorem contenders_at (deeds : List Deed) (target : Path) (machine : Machine) :
    Pool.At (Stage.program target) ((deeds.map Deed.start)[·]?) (contenders deeds target machine)
      ∧ ∀ index : Nat, (deeds.map Deed.start)[index]?.map Stage.deed = deeds[index]? := by
  have programs : deeds.map (Deed.program target)
      = (deeds.map Deed.start).map (Stage.program target) := by
    rw [List.map_map]
    exact List.map_congr_left fun deed _ => (Stage.program_start deed).symm
  refine ⟨by rw [contenders, programs]; exact .start _ machine, fun index => ?_⟩
  rw [List.getElem?_map, Option.map_map]
  refine (Option.map_congr fun deed _ => ?_).trans Option.map_id_apply
  cases deed <;> rfl

/-- Who reads after a content has been found does not get nothing. -/
theorem Racing.notNothing
    (clear : Cleared (machine.withDirectory directory).disk directory home last machine.names)
    (racing : Racing (machine.withDirectory directory).disk directory home last machine.names none
      stages pool.machine)
    (deed : ∀ index, (stages index).map Stage.deed = deeds[index]?)
    (stands : Pool.At (Stage.program (directory.child last)) stages pool)
    {schedule : List Nat}
    (few : (pool.after schedule).machine.names ≤ Nat.pow 10 Machine.freshNameLength)
    {reader other : Nat} {content : String}
    (found : pool.program? reader = some (.done (.ok (.found (some content)))))
    (unended : ∀ result, pool.program? other ≠ some (.done result)) :
    (pool.after schedule).program? other ≠ some (.done (.ok (.found none))) := by
  have few' := Nat.le_trans (Pool.names_le_after _ schedule) few
  obtain ⟨stage, isStage, tells⟩ := racing.ended clear stands few' found
  obtain rfl := Stage.told_of_result tells rfl
  obtain ⟨⟨files, held, there⟩, _⟩ := racing.found clear isStage
  have notTold : stages other ≠ some (.told none) := fun isTold =>
    unended (.ok (.found none)) (by rw [stands other, isTold]; rfl)
  have watched : Racing (machine.withDirectory directory).disk directory home last machine.names
      (some other) stages pool.machine :=
    .made ⟨held.folder, held.later, held.spread, held.settled, held.sole, held.seen.found, by
      rintro _ ⟨⟩
      exact ⟨there, notTold⟩⟩
  obtain ⟨stages', stands', racing', _⟩ := watched.after clear deed stands few
  intro nothing
  obtain ⟨stage', isStage', tells'⟩ := racing'.ended clear stands' few nothing
  obtain rfl := Stage.told_of_result tells' rfl
  cases racing' with
  | unmade _ _ _ _ nobody => cases nobody
  | made held => exact (held.seen.late other rfl).2 isStage'

/-- **Of several creations of a file**, in any order of their steps and of those who read it
meanwhile, exactly one creates it: the others are told that it exists, who reads gets nothing or the
whole content of the winner, and nothing else is left on the disk.  When somebody has got the content
nobody who reads later gets nothing.  All end when each has had ten turns. -/
theorem creates_file_once (freeName : FreeName machine directory home last) {schedule : List Nat}
    (few : ((contenders deeds (directory.child last) machine).after schedule).machine.names
      ≤ Nat.pow 10 Machine.freshNameLength) :
    CreatesOnce deeds machine (directory.child last) (home ++ [last])
        ((contenders deeds (directory.child last) machine).after schedule)
      ∧ (∀ earlier later, schedule = earlier ++ later → ∀ (reader other : Nat) (content : String),
        ((contenders deeds (directory.child last) machine).after earlier).program? reader
            = some (.done (.ok (.found (some content)))) →
        (∀ result, ((contenders deeds (directory.child last) machine).after earlier).program? other
            ≠ some (.done result)) →
        ((contenders deeds (directory.child last) machine).after schedule).program? other
            ≠ some (.done (.ok (.found none))))
      ∧ ((∀ index < deeds.length, 10 ≤ schedule.count index) →
        ∃ results, ((contenders deeds (directory.child last) machine).after schedule).results?
          = some results) := by
  have begins : ∀ (index : Nat) (stage : Stage), (deeds.map Deed.start)[index]? = some stage →
      (∃ content, stage = .creates content .ensures) ∨ stage = .reads ∨ stage = .told none := by
    intro index stage isStage
    rw [List.getElem?_map] at isStage
    obtain ⟨deed, _, rfl⟩ := Option.map_eq_some_iff.mp isStage
    cases deed with
    | create content => exact .inl ⟨content, rfl⟩
    | read => exact .inr (.inl rfl)
  obtain ⟨stands, deed⟩ := contenders_at deeds (directory.child last) machine
  obtain ⟨clear, racing⟩ := freeName.racing begins
  refine ⟨?_, fun earlier later split reader other content found unended => ?_, fun turns => ?_⟩
  · obtain ⟨stages', stands', racing', deed'⟩ := racing.after clear deed stands few
    exact racing'.createsOnce clear deed' stands' few
  · rw [split, Pool.after_append] at few ⊢
    have few' := Nat.le_trans (Pool.names_le_after _ later) few
    obtain ⟨stages', stands', racing', deed'⟩ := racing.after clear deed stands few'
    exact racing'.notNothing clear deed' stands' few found unended
  · refine Pool.exists_results machine (fun program isProgram => ?_) fun index inside =>
      turns index (by rwa [List.length_map] at inside)
    obtain ⟨deed, _, rfl⟩ := List.mem_map.mp isProgram
    exact asksAtMost_deed (directory.child last) deed

end

/-- Two creations of a file of which the one that begins later links first, and two who read it, one
before that and one after. -/
def crossed : Pool (Except Failure Told) :=
  (contenders [.create "1", .create "2", .read, .read] (Path.child ["data"] "users.json")
    Machine.start).after [0, 0, 0, 0, 0, 2, 1, 1, 1, 1, 1, 1, 1, 3, 0, 0, 1, 0, 1]

theorem freeName_start : FreeName Machine.start ["data"] ["data"] "users.json" where
  roomy := ⟨by decide, by decide, by decide, by decide⟩
  ground := .unbuilt ⟨.inr ⟨by decide, by decide⟩, Disk.sound_empty, Disk.rooted_empty, by decide,
    [], [], "data", [], 0, rfl, rfl, rfl, by decide, rfl⟩
  free := rfl
  unused _ _ _ := rfl

theorem crossed_creates_file_once :
    crossed.machine.names ≤ Nat.pow 10 Machine.freshNameLength
      ∧ CreatesOnce [.create "1", .create "2", .read, .read] Machine.start
        (Path.child ["data"] "users.json") ["data", "users.json"] crossed
      ∧ crossed.results?.map (·.map Except.toOption)
        = some [none, some .created, some (.found none), some (.found (some "2"))] := by
  have few : crossed.machine.names ≤ Nat.pow 10 Machine.freshNameLength := by decide +kernel
  exact ⟨few, (creates_file_once freeName_start few).1, by decide +kernel⟩

end DocStore.Files
