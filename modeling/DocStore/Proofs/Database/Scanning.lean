import DocStore.Proofs.Database.Writers
import DocStore.Proofs.Files.Scans
/-!
# Scans among writers

Who scans a collection takes no lock, and its requests are interleaved in any way with those of
writers.  As long as nobody drops the collection a scan does not fail, and what it tells is a
version of each document (`Scan.Among.tells_versions`).
-/

set_option autoImplicit false

namespace DocStore.Database

open Disk (Place Vacant)
open Files (Named keyName)
open Host (Along Machine Pool)

/-! ## Scans -/

/-- A scan of a collection for the documents that contain a query. -/
structure Scan where
  store : FileStore
  name : String
  query : Json

namespace Scan

/-- Scan a collection and tell what has come of it. -/
def program (scan : Scan) : Program Host.interface (Option (Except Failure (List Json))) :=
  (scan.store.perform (.scan scan.name scan.query)).toProgram.bind fun told => .done (some told)

/-- A scan and writers, none of whom has begun.  The scan is at the first place. -/
def pool (scan : Scan) (writers : List Writer) (machine : Machine) :
    Pool (Option (Except Failure (List Json))) :=
  .start (scan.program :: writers.map Writer.program) machine

/-- The machine at a time, when at each time the program at some place makes a step. -/
def machineAt (scan : Scan) (writers : List Writer) (machine : Machine) (turns : Nat → Nat)
    (time : Nat) : Machine :=
  (scan.pool writers machine).machineAt turns time

/-- What a scan has told at a time, if it has come to its end. -/
def told? (scan : Scan) (writers : List Writer) (machine : Machine) (turns : Nat → Nat)
    (time : Nat) : Option (Except Failure (List Json)) :=
  match ((scan.pool writers machine).atTime turns time).program? 0 with
  | some (.done told) => told
  | _ => none

/-- The collection of a scan exists on a machine. -/
def Stands (scan : Scan) (machine : Machine) : Prop :=
  (machine.attempt (scan.store.perform (.exists scan.name))).1 = .ok true

/-- The collection of a scan exists on a machine and has some documents there. -/
def Holds (scan : Scan) (machine : Machine) (documents : List Json) : Prop :=
  scan.Stands machine
    ∧ (machine.attempt (scan.store.scan scan.name fun _ => true)).1 = .ok documents

/-- The collection of a scan has a document on a machine. -/
def Has (scan : Scan) (machine : Machine) (id : String) (document : Json) : Prop :=
  (machine.attempt (scan.store.perform (.get scan.name id))).1 = .ok (some document)

instance (scan : Scan) (machine : Machine) : Decidable (scan.Stands machine) :=
  inferInstanceAs (Decidable (_ = _))

instance (scan : Scan) (machine : Machine) (documents : List Json) :
    Decidable (scan.Holds machine documents) := inferInstanceAs (Decidable (_ ∧ _))

section

variable {scan : Scan} {writers : List Writer} {machine : Machine} {turns : Nat → Nat}
  {start finish : Nat} {told : Except Failure (List Json)}

theorem program?_of_told? (isTold : scan.told? writers machine turns finish = some told) :
    ((scan.pool writers machine).atTime turns finish).program? 0 = some (.done (some told)) := by
  unfold told? at isTold
  split at isTold
  next isDone => rw [isDone, isTold]
  next => cases isTold

/-- A scan that has made no step is at its beginning. -/
theorem program?_of_unstarted (unstarted : ∀ time < start, turns time ≠ 0) :
    ((scan.pool writers machine).atTime turns start).program? 0 = some scan.program :=
  Pool.program?_of_idle (Nat.zero_le start) fun time _ => unstarted time

/-- A scan goes on between the steps of the writers. -/
theorem along (unstarted : ∀ time < start, turns time ≠ 0) (later : start ≤ finish)
    (isTold : scan.told? writers machine turns finish = some told) :
    ∃ ended ≤ finish, Along (scan.machineAt writers machine turns) start
      (scan.store.scan scan.name fun document => Json.contains document scan.query).toProgram told
      ended := by
  obtain ⟨ended, _, along, ends⟩ := (Pool.along later (program?_of_unstarted unstarted)
    (program?_of_told? isTold)).bind_inv
  cases ends with
  | done before => exact ⟨ended, before, along⟩

end

/-- A scan and writers below the same directory, which is empty at first. -/
structure Among (scan : Scan) (writers : List Writer) (home : Place) (machine : Machine) :
    Prop where
  vacant : Vacant machine.disk scan.store.root home
  named : Named scan.name
  writing : Writing home machine writers

/-- Documents are versions of what a scan is for, between two times. -/
structure Versions (scan : Scan) (machines : Nat → Machine) (start finish : Nat)
    (documents : List Json) : Prop where
  /-- No identifier is told twice. -/
  once : (documents.map FileStore.documentId?).Nodup
  /-- Each document contains the query, and the collection has it at some time. -/
  each : ∀ document ∈ documents, Json.contains document scan.query = true ∧ ∃ id time,
    FileStore.documentId? document = some id ∧ start ≤ time ∧ time ≤ finish
      ∧ scan.Has (machines time) id document
  /-- A document that contains the query, and that the collection has all the time, is told once. -/
  lasting : ∀ id document, Json.contains document scan.query = true →
    (∀ time, start ≤ time → time ≤ finish → scan.Has (machines time) id document) →
    documents.count document = 1

/-- A scan comes to its end if it is let make steps again and again. -/
def Ends (scan : Scan) (writers : List Writer) (machine : Machine) (turns : Nat → Nat)
    (start : Nat) : Prop :=
  (∀ time, ∃ later, time ≤ later ∧ turns later = 0) →
    ∃ finish told, start ≤ finish ∧ scan.told? writers machine turns finish = some told

/-- What a scan tells that has not begun before a time, when nobody drops its collection after that,
and fresh names do not start over. -/
structure TellsVersions (scan : Scan) (writers : List Writer) (machine : Machine)
    (turns : Nat → Nat) (start : Nat) : Prop where
  tells : ∀ finish told, start ≤ finish → scan.told? writers machine turns finish = some told →
    (scan.machineAt writers machine turns finish).names ≤ Nat.pow 10 Machine.freshNameLength →
    (∀ time, start ≤ time → time < finish →
      scan.Stands (scan.machineAt writers machine turns time) →
      scan.Stands (scan.machineAt writers machine turns (time + 1))) →
    ∃ documents, told = .ok documents
      ∧ scan.Versions (scan.machineAt writers machine turns) start finish documents
  ends : scan.Ends writers machine turns start

namespace Among

variable {scan : Scan} {writers : List Writer} {home : Place} {machine : Machine}
  (among : scan.Among writers home machine) {turns : Nat → Nat}
include among

/-! ## What the machines tell -/

/-- As long as fresh names do not start over, what lies below the directory has a history. -/
theorem history {finish : Nat} (few : (scan.machineAt writers machine turns finish).names
      ≤ Nat.pow 10 Machine.freshNameLength) :
    History { layout | layout.Blank } machine.disk home (scan.machineAt writers machine turns)
      finish := by
  have looks : scan.program.Asks Host.Request.Looks :=
    .bind (scan.store.looks_scan _ _) fun _ => .done _
  exact among.writing.history looks among.vacant.shows few

section

variable {finish : Nat} (few : (scan.machineAt writers machine turns finish).names
  ≤ Nat.pow 10 Machine.freshNameLength) {time : Nat} (early : time ≤ finish)
include few early

theorem clear : Clear scan.store scan.name (scan.machineAt writers machine turns time) :=
  ((among.history few).clear (fun _ blank => blank) among.vacant among.named early).1

theorem shelf_eq : (scan.store.glimpse scan.name (scan.machineAt writers machine turns time)).shelf
    = shelf? ((scan.machineAt writers machine turns time).disk.branchAt home) scan.name :=
  ((among.history few).clear (fun _ blank => blank) among.vacant among.named early).2

theorem stands_iff : scan.Stands (scan.machineAt writers machine turns time)
    ↔ shelf? ((scan.machineAt writers machine turns time).disk.branchAt home) scan.name ≠ none := by
  have told := (among.clear few early).stands
  rw [among.shelf_eq few early] at told
  rw [Stands, FileStore.perform, told, Except.ok.injEq, Option.isSome_iff_ne_none]

theorem document?_of_has {id : String} {document : Json}
    (has : scan.Has (scan.machineAt writers machine turns time) id document) :
    (scan.store.glimpse scan.name (scan.machineAt writers machine turns time)).document?
      (keyName id) = some document := by
  rw [Has, FileStore.get_alone (among.clear few early), Except.ok.injEq,
    Option.filter_eq_some_iff] at has
  exact has.1

theorem has_of_document? {id : String} {document : Json}
    (isDocument : (scan.store.glimpse scan.name
      (scan.machineAt writers machine turns time)).document? (keyName id) = some document)
    (isId : FileStore.documentId? document = some id) :
    scan.Has (scan.machineAt writers machine turns time) id document := by
  rw [Has, FileStore.get_alone (among.clear few early), isDocument, Option.filter_some,
    if_pos (beq_iff_eq.mpr isId)]

theorem documents_of_holds {documents : List Json}
    (holds : scan.Holds (scan.machineAt writers machine turns time) documents) :
    (scan.store.glimpse scan.name (scan.machineAt writers machine turns time)).documents
      = documents := by
  have told := holds.2
  rw [FileStore.scan_alone (among.clear few early), Except.ok.injEq] at told
  rwa [List.filter_true] at told

end

/-! ## What scans tell -/

omit among in
/-- A scan has no end but what it tells. -/
theorem ends {start : Nat} (unstarted : ∀ time < start, turns time ≠ 0) :
    scan.Ends writers machine turns start := by
  intro again
  have asks : scan.program.Asks Host.Request.Free :=
    .bind (scan.store.looks_scan _ _).free fun _ => .done _
  obtain ⟨finish, result, later, isDone⟩ :=
    Pool.exists_done again asks (program?_of_unstarted unstarted)
  obtain ⟨_, told, _, ends⟩ :=
    (Pool.along later (program?_of_unstarted unstarted) isDone).bind_inv
  cases ends with
  | done _ => exact ⟨finish, told, later, by rw [told?, isDone]⟩

/-- **A scan among writers** who do not drop the collection does not fail, and tells versions of its
documents. -/
theorem tells_versions {start : Nat} (unstarted : ∀ time < start, turns time ≠ 0) :
    scan.TellsVersions writers machine turns start := by
  refine ⟨fun finish told later isTold few undropped => ?_, ends unstarted⟩
  obtain ⟨ended, within, along⟩ := Scan.along unstarted later isTold
  have clear (time : Nat) (_ : start ≤ time) (early : time ≤ ended) :=
    among.clear few (Nat.le_trans early within)
  have orderly (time : Nat) (later : start ≤ time) (early : time ≤ ended) :=
    (clear time later early).orderly
  obtain ⟨first, after, before, ⟨noShelf, rfl⟩ | ⟨identity, isShelf, reading, isResult⟩⟩ :=
    FileStore.scan_along clear along
  · refine ⟨[], rfl, List.nodup_nil, (fun _ member => nomatch member), ?_⟩
    intro id document _ lasting
    have there := among.document?_of_has few (Nat.le_trans before within)
      (lasting first after (Nat.le_trans before within))
    exact absurd noShelf ((orderly first after before).shelved _
      ((orderly first after before).listed id document there))
  · have early {time : Nat} (soon : time ≤ ended) : time ≤ finish := Nat.le_trans soon within
    have stands (time : Nat) (later : first ≤ time) (soon : time ≤ ended) :
        scan.Stands (scan.machineAt writers machine turns time) := by
      induction time, later using Nat.le_induction with
      | base =>
          rw [among.stands_iff few (early soon), ← among.shelf_eq few (early soon), isShelf]
          exact Option.some_ne_none identity
      | succ time later ih =>
          exact undropped time (Nat.le_trans after later) (early soon) (ih (Nat.le_of_lt soon))
    have again : (scan.store.glimpse scan.name
        (scan.machineAt writers machine turns reading.last)).shelf = some identity := by
      have last := Nat.le_trans reading.begins reading.goesOn
      rw [among.shelf_eq few (early reading.ends)]
      rw [among.shelf_eq few (early before)] at isShelf
      exact (among.history few).shelf_stays among.named isShelf last (early reading.ends)
        fun time later soon => (among.stands_iff few (early (Nat.le_trans soon reading.ends))).mp
          (stands time later (Nat.le_trans soon reading.ends))
    have orderly (time : Nat) (later : first ≤ time) := orderly time (Nat.le_trans after later)
    rw [if_pos again] at isResult
    refine ⟨_, isResult, ?_, fun document member => ?_, fun id document contains lasting => ?_⟩
    · exact (reading.nodup_ids orderly).sublist (List.filter_sublist.map _)
    · obtain ⟨isRead, contains⟩ := List.mem_filter.mp member
      obtain ⟨id, time, later, soon, isId, there⟩ := reading.mem_documents orderly isRead
      exact ⟨contains, id, time, isId, Nat.le_trans after later, early soon,
        among.has_of_document? few (early soon) there isId⟩
    · have isRead := reading.of_lasting orderly fun time later soon =>
        among.document?_of_has few (early soon)
          (lasting time (Nat.le_trans after later) (early soon))
      have distinct := ((reading.nodup_ids orderly).of_map _).sublist
        (List.filter_sublist (p := fun document => Json.contains document scan.query))
      exact List.count_eq_one_of_mem distinct (List.mem_filter.mpr ⟨isRead, contains⟩)

end Among

end Scan

/-! ## One scan while others write -/

/-- A scan for all users. -/
def usersScan : Scan := ⟨newStore, "users", .object []⟩

/-- Somebody inserts a user. -/
def inserter : Writer :=
  ⟨newSession, newStore, .ofString "users", _, perform (.insert (.ofString "users") ada)⟩

/-- Somebody else saves the same user. -/
def saver : Writer :=
  ⟨secondSession, newStore, .ofString "users", _, perform (.save (.ofString "users") ada)⟩

/-- The first writer makes his steps, then the second one, and then he and the scan alternately. -/
def meeting (first second : Nat) (time : Nat) : Nat :=
  if time < first then 1 else if time < second ∨ time % 2 = 0 then 2 else 0

theorem among_saver : usersScan.Among [inserter, saver] ["data"] newMachine := by
  refine ⟨vacant_newMachine, Files.named_of_nameFault? (by decide),
    .locked fun writer member => ?_⟩
  rcases List.mem_cons.mp member with rfl | member
  · exact ⟨opened_newSession, perform_locks rfl
      (show Operation.Distinct (.insert (.ofString "users") ada) from distinct_ada)⟩
  · obtain rfl := List.mem_singleton.mp member
    exact ⟨⟨rfl, vacant_newMachine, blank_newStore⟩, perform_locks rfl
      (show Operation.Distinct (.save (.ofString "users") ada) from distinct_ada)⟩

/-- A user is saved again while all users are scanned. -/
theorem scan_meets_saver : usersScan.Among [inserter, saver] ["data"] newMachine
    ∧ (∀ time < 50, meeting 36 50 time ≠ 0)
    ∧ ∃ documents,
      usersScan.told? [inserter, saver] newMachine (meeting 36 50) 58 = some (.ok documents)
        ∧ usersScan.Versions (usersScan.machineAt [inserter, saver] newMachine (meeting 36 50))
          50 58 documents := by
  have unstarted : ∀ time < 50, meeting 36 50 time ≠ 0 := by decide
  have known : (usersScan.told? [inserter, saver] newMachine (meeting 36 50) 58).isSome
      ∧ (usersScan.machineAt [inserter, saver] newMachine (meeting 36 50) 58).names
        ≤ Nat.pow 10 Machine.freshNameLength
      ∧ ∀ step < 8, usersScan.Stands
        (usersScan.machineAt [inserter, saver] newMachine (meeting 36 50) (50 + step + 1)) := by
    decide +kernel
  obtain ⟨isThere, few, stands⟩ := known
  obtain ⟨told, isTold⟩ := Option.isSome_iff_exists.mp isThere
  obtain ⟨documents, rfl, versions⟩ := (among_saver.tells_versions unstarted).tells 58 told
    (by decide) isTold few fun time later early _ => by
      obtain ⟨step, rfl⟩ := Nat.exists_eq_add_of_le later
      exact stands step (by omega)
  exact ⟨among_saver, unstarted, documents, isTold, versions⟩

end DocStore.Database

/-!
## Scans of collections that are dropped

If a collection is dropped after a scan of it has looked for the directory, the scan tells all that
it is for or nothing, whatever is written after that (`Scan.Among.tells_all_or_nothing`).  The
directory that the scan has found does not come back, so it finds it again only if it has read all
that it reads before the drop.
-/

namespace DocStore.Database

open Disk (Place)
open Files (Named)
open Host (Along Machine Pool)

namespace Scan

/-- What a scan tells that begins at a time, when its collection has some documents from then on
until it is dropped, and fresh names do not start over. -/
structure TellsAllOrNothing (scan : Scan) (writers : List Writer) (machine : Machine)
    (turns : Nat → Nat) (start dropped : Nat) : Prop where
  tells : ∀ finish told documents, scan.told? writers machine turns finish = some told →
    (scan.machineAt writers machine turns finish).names ≤ Nat.pow 10 Machine.freshNameLength →
    (∀ time, start ≤ time → time < dropped → time ≤ finish →
      scan.Holds (scan.machineAt writers machine turns time) documents) →
    (dropped ≤ finish → ¬ scan.Stands (scan.machineAt writers machine turns dropped)) →
    told = .ok (documents.filter fun document => Json.contains document scan.query)
      ∨ dropped ≤ finish ∧ told = .ok []
  ends : scan.Ends writers machine turns start

section

variable {scan : Scan} {writers : List Writer} {machine : Machine} {turns : Nat → Nat}
  {start finish : Nat} {told : Except Failure (List Json)}

/-- A scan that makes its first step has looked for the directory, and goes on after that. -/
theorem scanAfter_along (unstarted : ∀ time < start, turns time ≠ 0) (begins : turns start = 0)
    (clear : Clear scan.store scan.name (scan.machineAt writers machine turns start))
    (later : start < finish) (isTold : scan.told? writers machine turns finish = some told) :
    ∃ ended ≤ finish, Along (scan.machineAt writers machine turns) (start + 1)
      (scan.store.scanAfter scan.name (fun document => Json.contains document scan.query)
        (scan.store.glimpse scan.name (scan.machineAt writers machine turns start)).shelf).toProgram
      told ended := by
  have inParts : scan.program
      = (Files.directoryIdentity (scan.store.documentsPath scan.name)).toProgram.bind fun found =>
          (ExceptT.bindCont (scan.store.scanAfter scan.name fun document =>
            Json.contains document scan.query) found).bind fun told => .done (some told) := by
    rw [← Program.bind_assoc, program, FileStore.perform, FileStore.scan_eq]
    rfl
  have there : ((scan.pool writers machine).atTime turns start).program? 0 = some scan.program :=
    program?_of_unstarted unstarted
  rw [inParts] at there
  have begun := Pool.program?_of_once (.directoryIdentity _)
    (Files.looks_directoryIdentity _).free begins there
  have found : ((scan.machineAt writers machine turns start).run
      (Files.directoryIdentity (scan.store.documentsPath scan.name)).toProgram).1
        = .ok (scan.store.glimpse scan.name (scan.machineAt writers machine turns start)).shelf :=
    clear.shelf
  rw [show ((scan.pool writers machine).machineAt turns start)
    = scan.machineAt writers machine turns start from rfl, found] at begun
  obtain ⟨ended, _, along, ends⟩ :=
    (Pool.along later begun (program?_of_told? isTold)).bind_inv
  cases ends with
  | done before => exact ⟨ended, before, along⟩

end

namespace Among

variable {scan : Scan} {writers : List Writer} {home : Place} {machine : Machine}
  (among : scan.Among writers home machine) {turns : Nat → Nat}
include among

/-- **A scan whose collection is dropped** after it has begun tells all that it is for or nothing.
-/
theorem tells_all_or_nothing {start dropped : Nat} (unstarted : ∀ time < start, turns time ≠ 0)
    (begins : turns start = 0) (before : start < dropped) :
    scan.TellsAllOrNothing writers machine turns start dropped := by
  refine ⟨fun finish told documents isTold few holds gone => ?_, ends unstarted⟩
  have later : start < finish := by
    by_contra notLater
    have isDone := program?_of_told? isTold
    rw [program?_of_unstarted fun time soon =>
      unstarted time (Nat.lt_of_lt_of_le soon (Nat.not_lt.mp notLater))] at isDone
    cases isDone
  have history := among.history few
  have clear (time : Nat) (early : time ≤ finish) := among.clear few early
  obtain ⟨ended, within, along⟩ := scanAfter_along unstarted begins
    (clear start (Nat.le_of_lt later)) later isTold
  have stands := (among.stands_iff few (Nat.le_of_lt later)).mp
    (holds start (Nat.le_refl start) before (Nat.le_of_lt later)).1
  obtain ⟨identity, isShelf⟩ := Option.ne_none_iff_exists'.mp stands
  rw [among.shelf_eq few (Nat.le_of_lt later), isShelf] at along
  obtain ⟨reading, isResult⟩ := FileStore.scanAfter_along
    (fun time _ soon => clear time (Nat.le_trans soon within)) along
  have last : reading.last ≤ finish := Nat.le_trans reading.ends within
  have after : start ≤ reading.last :=
    Nat.le_trans (Nat.le_of_succ_le reading.begins) reading.goesOn
  rw [among.shelf_eq few last] at isResult
  by_cases again : shelf? ((scan.machineAt writers machine turns reading.last).disk.branchAt home)
      scan.name = some identity
  · -- the same directory is there again, so it has not been dropped yet
    have notDropped : reading.last < dropped := by
      by_contra soon
      have soon := Nat.not_lt.mp soon
      have isThere := history.shelf_between among.named isShelf again last (Nat.le_of_lt before)
        soon
      refine gone (Nat.le_trans soon last) ((among.stands_iff few (Nat.le_trans soon last)).mpr ?_)
      rw [isThere]
      exact Option.some_ne_none identity
    rw [if_pos again, reading.documents_eq
      (fun time _ soon => (clear time (Nat.le_trans soon within)).orderly) fun time later' soon =>
        among.documents_of_holds few (Nat.le_trans soon last)
          (holds time (Nat.le_of_succ_le later') (Nat.lt_of_le_of_lt soon notDropped)
            (Nat.le_trans soon last))] at isResult
    exact .inl isResult
  · rw [if_neg again] at isResult
    refine .inr ⟨?_, isResult⟩
    by_contra notDropped
    have notDropped := Nat.not_le.mp notDropped
    refine again (history.shelf_stays among.named isShelf after last fun time later' soon => ?_)
    have soon := Nat.le_trans soon last
    exact (among.stands_iff few soon).mp
      (holds time later' (Nat.lt_of_le_of_lt soon notDropped) soon).1

end Among

end Scan

/-! ### One scan while all users are replaced -/

/-- A user of whom nothing is known but who it is. -/
def user (id : String) : Json := .object [("_id", Json.string id)]

theorem wellFormed_user (id : String) : (user id).WellFormed := by
  refine .object (List.nodup_singleton _) fun field member => ?_
  obtain rfl := List.mem_singleton.mp member
  exact .leaf trivial

/-- Somebody puts a user, drops all users, creates the collection again and puts another user, all
of it without a lock. -/
def replacer : Writer :=
  ⟨newSession, newStore, .ofString "users", _, do
    let _ ← storeOn (.create "users")
    storeOn (.put "users" "ada" (user "ada"))
    let _ ← storeOn (.drop "users")
    let _ ← storeOn (.create "users")
    storeOn (.put "users" "bob" (user "bob"))⟩

theorem among_replacer : usersScan.Among [replacer] ["data"] newMachine := by
  have named : Named "users" := Files.named_of_nameFault? (by decide)
  have stores {op : Storage.Op .json} (fits : op.Fits) : (storeOn op).Asks Request.Stores :=
    .ask fits fun _ => .done _
  have puts (id : String) : (storeOn (.put "users" id (user id))).Asks Request.Stores :=
    stores ⟨named, wellFormed_user id, rfl⟩
  refine ⟨vacant_newMachine, named, .alone ⟨opened_newSession, ?_⟩⟩
  exact .bind (stores named) fun _ => .bind (puts "ada") fun _ => .bind (stores named) fun _ =>
    .bind (stores named) fun _ => puts "bob"

/-- The scan makes its first step at some time and the others when the writer has come to his end.
-/
def interrupted (first ended : Nat) (time : Nat) : Nat :=
  if time = first ∨ ended ≤ time then 0 else 1

/-- A scan that has begun before the drop and lists the files of the new collection tells all users
of the old one or none. -/
theorem scan_meets_replacer : usersScan.Among [replacer] ["data"] newMachine
    ∧ (∀ time < 17, interrupted 17 38 time ≠ 0) ∧ interrupted 17 38 17 = 0
    ∧ ∃ told, usersScan.told? [replacer] newMachine (interrupted 17 38) 41 = some told
      ∧ (told = .ok ([user "ada"].filter fun document =>
          Json.contains document usersScan.query) ∨ 20 ≤ 41 ∧ told = .ok []) := by
  have unstarted : ∀ time < 17, interrupted 17 38 time ≠ 0 := by decide
  have known : (usersScan.told? [replacer] newMachine (interrupted 17 38) 41).isSome
      ∧ (usersScan.machineAt [replacer] newMachine (interrupted 17 38) 41).names
        ≤ Nat.pow 10 Machine.freshNameLength
      ∧ (∀ step < 3, usersScan.Holds
        (usersScan.machineAt [replacer] newMachine (interrupted 17 38) (17 + step)) [user "ada"])
      ∧ ¬ usersScan.Stands
        (usersScan.machineAt [replacer] newMachine (interrupted 17 38) 20) := by
    decide +kernel
  obtain ⟨isThere, few, holds, gone⟩ := known
  obtain ⟨told, isTold⟩ := Option.isSome_iff_exists.mp isThere
  refine ⟨among_replacer, unstarted, by decide, told, isTold, ?_⟩
  exact (among_replacer.tells_all_or_nothing unstarted (by decide) (by decide)).tells 41 told _
    isTold few (fun time later early _ => by
      obtain ⟨step, rfl⟩ := Nat.exists_eq_add_of_le later
      exact holds step (by omega)) fun _ => gone

end DocStore.Database
