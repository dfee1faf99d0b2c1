import DocStore.Files.Store
import DocStore.Proofs.Attempt
import DocStore.Proofs.Storage.Cabinet
/-!
# What the storage in files fails with

Whatever the disk answers, the storage in files fails with a fault of the database, which names the
path and keeps the error number as its cause.  One call is not wrapped: removing what is left of a
hidden directory after a collection has been created (`Unwrapped.sweep`).  Lock files do not wrap
their calls at all (`FileLock.fails_acquire`, `FileLock.fails_release`).
-/

set_option autoImplicit false

namespace DocStore

open Disk (Path)
open Host (Action)

/-- A fault of the database. -/
inductive Failure.Wrapped : Failure → Prop
  | database (error : DatabaseError) : Wrapped (.database error)

/-- What a storage in files can fail with besides a fault of the database. -/
inductive Failure.Unwrapped : Failure → Prop
  /-- A call on a lock file or the directory of the lock files, or on an open one. -/
  | lockFile {call : String} (isCall : call ∈ ["mkdir", "open", "write", "close", "unlink"])
      (errno : Disk.Errno) (path : Option String) : Unwrapped (.system ⟨errno, call, path⟩)
  /-- The removal of what is left of a hidden directory. -/
  | sweep (errno : Disk.Errno) (path : Path) : Unwrapped (.system ⟨errno, "rm", some path.text⟩)
  /-- The attempts to take a lock have run out before its time. -/
  | clock : Unwrapped (.stated "The clock does not advance")
  /-- A value has no text form that a message needs. -/
  | noText : Unwrapped .illTyped

/-- A failure that a fault of the database wraps, or one that nothing wraps. -/
def Failure.Refusal (failure : Failure) : Prop := failure.Wrapped ∨ failure.Unwrapped

/-- An action fails with failures of a kind only, whatever the host answers. -/
abbrev Host.Fails {α : Type} (kind : Failure → Prop) (action : Action α) : Prop :=
  action.FailsWith (fun _ _ => True) kind

namespace Host

variable {α : Type} {kind : Failure → Prop}

/-- Whatever a call answers, what follows it fails with failures of the kind. -/
theorem fails_tryCall_bind {call : Disk.Call} {next : Except Disk.Errno call.Result → Action α}
    (succeeds : ∀ result, Fails kind (next (.ok result)))
    (refuses : ∀ errno, Fails kind (next (.error errno))) : Fails kind (tryCall call >>= next) := by
  refine .bind (.ask fun _ _ => .done (.ok _)) fun answer => ?_
  cases answer with
  | ok result => exact succeeds result
  | error errno => exact refuses errno

theorem fails_tryCall (call : Disk.Call) : Fails kind (tryCall call) := .ask fun _ _ => .done (.ok _)

theorem fails_callAs {call : Disk.Call} {failure : Disk.Errno → Failure}
    (isKind : ∀ errno, kind (failure errno)) : Fails kind (callAs call failure) :=
  .ask fun _ _ => .done (Attempt.only_mapError isKind _)

theorem fails_ask (request : Request) : Fails kind (ask request) := .ask fun _ _ => .done (.ok _)

theorem fails_makeDirectories {path : Path} {failure : Disk.Obstacle → Failure}
    (isKind : ∀ obstacle, kind (failure obstacle)) : Fails kind (makeDirectories path failure) := by
  refine fails_tryCall_bind (fun obstacle => ?_) fun _ => .fail (isKind _)
  cases obstacle with
  | none => exact .pure ()
  | some obstacle => exact .fail (isKind obstacle)

/-- Printing the line of an event does not fail. -/
theorem fails_log (logger : Log.Logger) (event : Log.Event) : Fails kind (log logger event) := by
  unfold log
  split
  next =>
    refine .bind (.request _) fun time => ?_
    unfold printLog
    split
    · exact .request _
    · exact .pure ()
  next => exact .pure ()

/-- A call for which a missing entry is no failure. -/
theorem fails_orMissing {call : Disk.Call} {next : Except Disk.Errno call.Result → Action α}
    {allowed : Disk.Errno → Prop} [DecidablePred allowed] {missing : α}
    {failure : Disk.Errno → Failure} (isKind : ∀ errno, kind (failure errno))
    (succeeds : ∀ result, Fails kind (next (.ok result)))
    (refuses : ∀ errno, next (.error errno)
      = if allowed errno then pure missing else Attempt.fail (failure errno)) :
    Fails kind (tryCall call >>= next) := by
  refine fails_tryCall_bind succeeds fun errno => ?_
  rw [refuses]
  split
  · exact .pure _
  · exact .fail (isKind errno)

end Host

open Host (Fails fails_tryCall_bind fails_tryCall fails_callAs fails_ask fails_makeDirectories
  fails_log fails_orMissing)

open Failure (Wrapped Unwrapped Refusal)

/-! ## Files -/

namespace Files

theorem fails_ensureDirectory (path : Path) : Fails Wrapped (ensureDirectory path) := by
  unfold ensureDirectory
  split
  · exact .fail (.database _)
  · exact fails_makeDirectories fun _ => .database _

theorem fails_writeTemporary {kind : Failure → Prop} (temporary : Path) (content : String) :
    Fails kind (writeTemporary temporary content) := by
  have flushes (handle : Nat) : Fails kind (flush handle) := by
    refine fails_tryCall_bind (fun _ => .pure _) fun errno => ?_
    dsimp only
    split
    · exact fails_tryCall _
    · exact .pure _
  have fills (handle : Nat) : Fails kind (fill handle content) :=
    fails_tryCall_bind (fun _ => flushes handle) fun _ => .pure _
  refine fails_tryCall_bind (fun handle => ?_) fun _ => .pure _
  exact .bind (fills handle) fun _ => fails_tryCall_bind (fun _ => .pure _) fun _ => .pure _

theorem fails_discard {kind : Failure → Prop} (temporary : Path) : Fails kind (discard temporary) :=
  .bind (fails_tryCall _) fun _ => .pure ()

theorem fails_syncEntries {kind : Failure → Prop} (directory : Path) :
    Fails kind (syncEntries directory) := .bind (fails_tryCall _) fun _ => .pure ()

theorem fails_atomicWrite (target : Path) (content : String) :
    Fails Wrapped (atomicWrite target content) := by
  refine .bind (fails_ensureDirectory _) fun _ => .bind (fails_ask _) fun fresh => ?_
  refine .bind (fails_writeTemporary _ content) fun written => ?_
  cases written with
  | error errno => exact .fail (.database _)
  | ok written =>
      exact fails_tryCall_bind (fun _ => fails_syncEntries _) fun _ =>
        .bind (fails_discard _) fun _ => .fail (.database _)

/-- A file that is there already is told apart from every other failure. -/
theorem fails_atomicCreate (target : Path) (content : String) :
    Fails (fun failure => failure.Wrapped ∨ ∃ path, failure = .fileExists path)
      (atomicCreate target content) := by
  refine .bind ((fails_ensureDirectory _).mono fun _ => .inl) fun _ =>
    .bind (fails_ask _) fun fresh => .bind (fails_writeTemporary _ content) fun written => ?_
  cases written with
  | error errno => exact .fail (.inl (.database _))
  | ok written =>
      refine fails_tryCall_bind (fun _ => .bind (fails_syncEntries _) fun _ => fails_discard _)
        fun errno => .bind (fails_discard _) fun _ => ?_
      split
      · exact .fail (.inr ⟨_, rfl⟩)
      · exact .fail (.inl (.database _))

theorem fails_readDocument (path : Path) : Fails Wrapped (readDocument path) :=
  fails_orMissing (fun _ => .database _) (fun _ => .pure _) fun _ => rfl

theorem fails_listEntries (directory : Path) (kind : Disk.EntryKind) :
    Fails Wrapped (listEntries directory kind) :=
  fails_orMissing (fun _ => .database _) (fun _ => .pure _) fun _ => rfl

theorem fails_listFiles (directory : Path) (ending : String) :
    Fails Wrapped (listFiles directory ending) :=
  .bind (fails_listEntries directory .file) fun _ => .pure _

theorem fails_isDirectory (path : Path) : Fails Wrapped (isDirectory path) :=
  fails_orMissing (fun _ => .database _) (fun _ => .pure _) fun _ => rfl

theorem fails_directoryIdentity (path : Path) : Fails Wrapped (directoryIdentity path) :=
  fails_orMissing (fun _ => .database _) (fun _ => .pure _) fun _ => rfl

theorem fails_removeDocument (path : Path) : Fails Wrapped (removeDocument path) :=
  fails_orMissing (fun _ => .database _) (fun _ => .pure _) fun _ => rfl

end Files

/-! ## Lock files -/

namespace FileLock

variable (lock : FileLock)

theorem unwrapped_callFailure {call : String}
    (isCall : call ∈ ["mkdir", "open", "write", "close", "unlink"]) (errno : Disk.Errno) :
    Refusal (lock.callFailure call errno) := .inr (.lockFile isCall errno _)

/-- **Giving a lock back** fails with what closing and removing its file answer. -/
theorem fails_release (handle : Nat) : Fails Refusal (lock.release handle) := by
  refine fails_tryCall_bind (fun _ => ?_) fun errno => ?_
  · refine fails_tryCall_bind (fun _ => .pure _) fun errno => ?_
    dsimp only
    split
    · exact .pure _
    · exact .fail (lock.unwrapped_callFailure (by decide) errno)
  · dsimp only
    split
    · exact .pure _
    · exact .fail (.inr (.lockFile (by decide) errno none))

theorem fails_sign (handle : Nat) : Fails Refusal (lock.sign handle) := by
  refine .bind (fails_ask _) fun _ => .bind (fails_ask _) fun _ => ?_
  exact fails_tryCall_bind (fun _ => .pure _) fun errno =>
    .bind (lock.fails_release handle) fun _ => .fail (.inr (.lockFile (by decide) errno none))

theorem fails_attempts (start : Int) (budget : Nat) (waited : Bool) :
    Fails Refusal (lock.attempts start budget waited) := by
  induction budget generalizing waited with
  | zero => exact .fail (.inr .clock)
  | succ budget ih =>
      refine fails_tryCall_bind (fun handle => .bind (lock.fails_sign handle) fun _ => .pure _)
        fun errno => ?_
      dsimp only
      split
      · refine .bind (fails_ask _) fun now => ?_
        split
        · exact .fail (.inl (.database _))
        · have retries : Fails Refusal (Host.ask (.pause lock.pause) >>= fun _ =>
              lock.attempts start budget true) := .bind (fails_ask _) fun _ => ih true
          split
          · exact .bind (fails_log _ _) fun _ => retries
          · exact retries
      · exact .fail (lock.unwrapped_callFailure (by decide) errno)

/-- **Taking a lock** fails because it has been waited for too long, or with what a call on its file
or its directory answers. -/
theorem fails_acquire : Fails Refusal lock.acquire :=
  .bind (fails_ask _) fun _ =>
    .bind (fails_makeDirectories fun obstacle => .inr (.lockFile (by decide) _ _)) fun _ =>
      lock.fails_attempts ..

end FileLock

/-! ## The storage -/

namespace FileStore

open Files

theorem fails_readJson (path : Path) : Fails Wrapped (readJson path) := by
  refine .bind (fails_readDocument path) fun content => ?_
  cases content with
  | none => exact .pure none
  | some content =>
      dsimp only
      split
      · exact .pure _
      · exact .fail (.database _)

theorem fails_readDocumentFile (path : Path) : Fails Wrapped (readDocumentFile path) := by
  refine .bind (fails_readJson path) fun value => ?_
  split
  · exact .pure none
  · exact .pure none
  · split
    · exact .pure _
    · exact .fail (.database _)

theorem fails_readCheckFile (path : Path) : Fails Wrapped (readCheckFile path) := by
  refine .bind (fails_readJson path) fun value => ?_
  split
  · exact .pure none
  · exact .pure none
  · split
    · exact .pure _
    · exact .fail (.database _)

theorem refusal_reached {limit : Storage.Limit} (count : Nat) :
    Attempt.Only Refusal (limit.reached count) := by
  cases limit with
  | none | upTo _ => exact .ok _
  | incomparable => exact .error (.inr .noText)

theorem fails_deleteFiles (directory : Path) (wanted : Json → Bool) (limit : Storage.Limit)
    (removed : Nat) (names : List String) :
    Fails Refusal (deleteFiles directory wanted limit removed names) := by
  have deletes (path : Path) : Fails Wrapped (deleteFile path wanted) := by
    refine .bind (fails_readDocumentFile path) fun document => ?_
    cases document with
    | none => exact .pure none
    | some document =>
        dsimp only
        split
        · refine .bind (fails_removeDocument path) fun isRemoved => ?_
          split
          · exact .pure _
          · exact .pure _
        · exact .pure none
  induction names generalizing removed with
  | nil => exact .pure []
  | cons name rest ih =>
      unfold deleteFiles
      refine .bind (.ofExcept (refusal_reached removed)) fun reached => ?_
      split
      · exact .pure []
      · refine .bind ((deletes _).mono fun _ => .inl) fun document => ?_
        cases document with
        | none => exact ih removed
        | some document => exact .bind (ih _) fun _ => .pure _

variable (store : FileStore)

/-- Creating a collection is the one operation on stored values that passes a failed call on. -/
theorem fails_create (collection : String) : Fails Refusal (store.create collection) := by
  have wrapped {α : Type} {action : Action α} (fails : Fails Wrapped action) :
      Fails Refusal action := fails.mono fun _ => .inl
  refine .bind (wrapped (fails_isDirectory _)) fun found => ?_
  split
  · exact .pure false
  · refine .bind (wrapped (fails_ensureDirectory _)) fun _ => .bind (fails_ask _) fun fresh =>
      .andFinally ?_ (fails_callAs fun errno => .inr (.sweep errno _))
    refine .bind (wrapped (fails_ensureDirectory _)) fun _ =>
      .bind (wrapped (fails_ensureDirectory _)) fun _ =>
        fails_tryCall_bind (fun _ => .pure _) fun errno => ?_
    dsimp only
    split
    · exact .pure _
    · exact .fail (.inl (.database _))

theorem fails_drop (collection : String) : Fails Wrapped (store.drop collection) := by
  refine .bind (fails_ask _) fun fresh => fails_tryCall_bind (fun _ => ?_) fun errno => ?_
  · exact fails_tryCall_bind (fun _ => .pure _) fun errno =>
      .bind (fails_log _ _) fun _ => .pure _
  · dsimp only
    split
    · exact .pure _
    · exact .fail (.database _)

theorem fails_createFile (collection : String) (path : Path) (content : String) :
    Fails Wrapped (store.createFile collection path (.ok content)) := by
  refine .bind (.bind (fails_isDirectory _) fun found => ?_) fun _ =>
    .bind (.ofExcept (.ok _)) fun text =>
      .outcome_bind (fails_atomicCreate path text) fun result only => ?_
  · split
    · exact .pure ()
    · exact .fail (.database _)
  · cases result with
    | ok _ => exact .pure true
    | error failure =>
        rcases only.of_error with wrapped | ⟨path, rfl⟩
        · cases wrapped
          exact .fail (.database _)
        · exact .pure false

/-- **What reads stored values** fails with a fault of the database only. -/
theorem fails_reads {op : Storage.Op .json} (reads : op.Reads) : Fails Wrapped (store.perform op) := by
  cases op with
  | «exists» collection => exact fails_isDirectory _
  | collections =>
      refine .bind (fails_listEntries _ _) fun names => .bind (.forEach fun name => ?_) fun _ =>
        .pure _
      exact .bind (fails_isDirectory _) fun kept => .pure _
  | get collection id => exact .bind (fails_readDocumentFile _) fun _ => .pure _
  | scan collection query =>
      refine .bind (fails_directoryIdentity _) fun before => ?_
      cases before with
      | none => exact .pure []
      | some before =>
          refine .bind (fails_listFiles _ _) fun names => .bind
            (.bind (.forEach fun name => fails_readDocumentFile _) fun _ => .pure _) fun documents =>
              .bind (fails_directoryIdentity _) fun after => ?_
          split
          · exact .pure _
          · exact .pure []
  | checks collection =>
      exact .bind (fails_listFiles _ _) fun names =>
        .bind (.forEach fun name => fails_readCheckFile _) fun _ => .pure _
  | create | drop | put | replace | deleteMatching | deleteById | addCheck | dropCheck | close =>
      exact reads.elim

/-- **Every operation of the storage in files** fails with a refusal. -/
theorem fails_perform (op : Storage.Op .json) : Fails Refusal (store.perform op) := by
  have wrapped {α : Type} {action : Action α} (fails : Fails Wrapped action) :
      Fails Refusal action := fails.mono fun _ => .inl
  cases op with
  | «exists» | collections | get | scan | checks => exact wrapped (store.fails_reads trivial)
  | create collection => exact store.fails_create collection
  | drop collection => exact wrapped (store.fails_drop collection)
  | put collection id document =>
      refine wrapped (.bind (store.fails_createFile ..) fun created => ?_)
      split
      · exact .pure ()
      · exact .fail (.database _)
  | replace collection id document =>
      refine wrapped (.bind (fails_readDocument _) fun found => ?_)
      cases found with
      | none => exact .pure false
      | some found =>
          exact .bind (.ofExcept (.ok _)) fun _ => .bind (fails_atomicWrite _ _) fun _ => .pure _
  | deleteMatching collection query limit =>
      exact .bind (wrapped (fails_listFiles _ _)) fun names => fails_deleteFiles ..
  | deleteById collection id => exact wrapped (fails_removeDocument _)
  | addCheck collection name check => exact wrapped (store.fails_createFile ..)
  | dropCheck collection name => exact wrapped (fails_removeDocument _)
  | close => exact .pure ()

end FileStore

end DocStore
