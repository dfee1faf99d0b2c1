import DocStore.Files.Atomic
import DocStore.Files.Store
import DocStore.Proofs.Asking
import DocStore.Proofs.Host.Along
import DocStore.Proofs.Host.Queue
import DocStore.Proofs.Storage.Cabinet
/-!
# What the storage in files asks

The storage in files asks for calls on the disk, fresh names, the time and that lines are printed.
It never has to do with the sections that programs queue for, and neither do its lock files.
`FileStore.free_perform` says so of every operation, `FileLock.free_acquire` and
`FileLock.free_release` of the locks.  An operation that reads only looks
(`FileStore.looks_perform`).
-/

set_option autoImplicit false

namespace DocStore

open Disk (Path)
open Host (Action Request)

/-- Nothing that an action asks has to do with a section. -/
abbrev Host.FreeOf {α : Type} (action : Action α) : Prop := action.Asks Request.Free

/-- An action only looks. -/
abbrev Host.LooksOf {α : Type} (action : Action α) : Prop := action.Asks Request.Looks

theorem Host.LooksOf.free {α : Type} {action : Action α} (looks : Host.LooksOf action) :
    Host.FreeOf action := Program.Asks.mono looks fun _ => Request.Looks.free

namespace Attempt.Asks

variable {I : Interface} {α : Type} {allowed : I.Request → Prop}

theorem outcome {attempt : Attempt I α} (asks : Asks allowed attempt) :
    Asks allowed attempt.outcome :=
  Program.Asks.bind asks fun _ => .done _

end Attempt.Asks

namespace Host

variable {α : Type}

theorem free_tryCall (call : Disk.Call) : FreeOf (tryCall call) := .ask trivial fun _ => .done _

/-- Whatever a call answers, what follows it asks what is allowed. -/
theorem asks_tryCall_bind {allowed : Request → Prop} {call : Disk.Call}
    {next : Except Disk.Errno call.Result → Action α} (isAllowed : allowed (.disk call))
    (succeeds : ∀ result, (next (.ok result)).Asks allowed)
    (fails : ∀ errno, (next (.error errno)).Asks allowed) :
    (tryCall call >>= next).Asks allowed := by
  refine .bind (.ask isAllowed fun _ => .done _) fun answer => ?_
  cases answer with
  | ok result => exact succeeds result
  | error errno => exact fails errno

theorem free_callAs (call : Disk.Call) (failure : Disk.Errno → Failure) :
    FreeOf (callAs call failure) := .ask trivial fun _ => .done _

/-- Whatever a call answers, what follows it has to do with no section. -/
theorem free_tryCall_bind {call : Disk.Call} {next : Except Disk.Errno call.Result → Action α}
    (succeeds : ∀ result, FreeOf (next (.ok result)))
    (fails : ∀ errno, FreeOf (next (.error errno))) :
    FreeOf (tryCall call >>= next) := asks_tryCall_bind trivial succeeds fails

theorem free_makeDirectories (path : Path) (failure : Disk.Obstacle → Failure) :
    FreeOf (makeDirectories path failure) := by
  refine free_tryCall_bind (fun obstacle => ?_) fun _ => .fail _
  cases obstacle with
  | none => exact .pure ()
  | some obstacle => exact .fail _

theorem free_log (logger : Log.Logger) (event : Log.Event) : FreeOf (log logger event) := by
  unfold log
  split
  next =>
    refine .bind (.request trivial) fun time => ?_
    unfold printLog
    split
    · exact .request trivial
    · exact .pure ()
  next => exact .pure ()

end Host

open Host (FreeOf LooksOf asks_tryCall_bind free_tryCall free_callAs free_tryCall_bind
  free_makeDirectories free_log)

/-! ## Files -/

namespace Files

theorem free_ensureDirectory (path : Path) : FreeOf (ensureDirectory path) := by
  unfold ensureDirectory
  split
  · exact .fail _
  · exact free_makeDirectories path _

theorem free_writeTemporary (temporary : Path) (content : String) :
    FreeOf (writeTemporary temporary content) := by
  have flushes (handle : Nat) : FreeOf (flush handle) := by
    refine free_tryCall_bind (fun _ => .pure _) fun errno => ?_
    dsimp only
    split
    · exact free_tryCall _
    · exact .pure _
  have fills (handle : Nat) : FreeOf (fill handle content) :=
    free_tryCall_bind (fun _ => flushes handle) fun _ => .pure _
  refine free_tryCall_bind (fun handle => ?_) fun _ => .pure _
  exact .bind (fills handle) fun _ => free_tryCall_bind (fun _ => .pure _) fun _ => .pure _

theorem free_discard (temporary : Path) : FreeOf (discard temporary) :=
  .bind (free_tryCall _) fun _ => .pure ()

theorem free_syncEntries (directory : Path) : FreeOf (syncEntries directory) :=
  .bind (free_tryCall _) fun _ => .pure ()

theorem free_atomicWrite (target : Path) (content : String) :
    FreeOf (atomicWrite target content) := by
  refine .bind (free_ensureDirectory _) fun _ => .bind (.request trivial) fun fresh => ?_
  refine .bind (free_writeTemporary _ content) fun written => ?_
  cases written with
  | error errno => exact .fail _
  | ok written =>
      exact free_tryCall_bind (fun _ => free_syncEntries _) fun _ =>
        .bind (free_discard _) fun _ => .fail _

theorem free_atomicCreate (target : Path) (content : String) :
    FreeOf (atomicCreate target content) := by
  refine .bind (free_ensureDirectory _) fun _ => .bind (.request trivial) fun fresh => ?_
  refine .bind (free_writeTemporary _ content) fun written => ?_
  cases written with
  | error errno => exact .fail _
  | ok written =>
      refine free_tryCall_bind (fun _ => .bind (free_syncEntries _) fun _ => free_discard _)
        fun errno => .bind (free_discard _) fun _ => ?_
      split
      · exact .fail _
      · exact .fail _

/-- A call for which a missing file is no failure. -/
theorem asks_orMissing {α : Type} {asked : Host.Request → Prop} {call : Disk.Call}
    {next : Except Disk.Errno call.Result → Action α} {allowed : Disk.Errno → Prop}
    [DecidablePred allowed] {missing : α} {failure : Disk.Errno → Failure}
    (isAsked : asked (.disk call)) (succeeds : ∀ result, (next (.ok result)).Asks asked)
    (fails : ∀ errno, next (.error errno)
      = if allowed errno then pure missing else Attempt.fail (failure errno)) :
    (Host.tryCall call >>= next).Asks asked := by
  refine asks_tryCall_bind isAsked succeeds fun errno => ?_
  rw [fails]
  split
  · exact .pure _
  · exact .fail _

theorem looks_readDocument (path : Path) : LooksOf (readDocument path) :=
  asks_orMissing trivial (fun _ => .pure _) fun _ => rfl

theorem looks_listEntries (directory : Path) (kind : Disk.EntryKind) :
    LooksOf (listEntries directory kind) :=
  asks_orMissing trivial (fun _ => .pure _) fun _ => rfl

theorem looks_listFiles (directory : Path) (ending : String) :
    LooksOf (listFiles directory ending) :=
  .bind (looks_listEntries directory .file) fun _ => .pure _

theorem looks_isDirectory (path : Path) : LooksOf (isDirectory path) :=
  asks_orMissing trivial (fun _ => .pure _) fun _ => rfl

theorem looks_directoryIdentity (path : Path) : LooksOf (directoryIdentity path) :=
  asks_orMissing trivial (fun _ => .pure _) fun _ => rfl

theorem free_removeDocument (path : Path) : FreeOf (removeDocument path) :=
  asks_orMissing trivial (fun _ => .pure _) fun _ => rfl

end Files

/-! ## Lock files -/

namespace FileLock

variable (lock : FileLock)

theorem free_release (handle : Nat) : FreeOf (lock.release handle) := by
  refine free_tryCall_bind (fun _ => ?_) fun errno => ?_
  · refine free_tryCall_bind (fun _ => .pure _) fun errno => ?_
    dsimp only
    split
    · exact .pure _
    · exact .fail _
  · dsimp only
    split
    · exact .pure _
    · exact .fail _

theorem free_attempts (start : Int) (budget : Nat) (waited : Bool) :
    FreeOf (lock.attempts start budget waited) := by
  induction budget generalizing waited with
  | zero => exact .fail _
  | succ budget ih =>
      refine free_tryCall_bind (fun handle => ?_) fun errno => ?_
      · have signs : FreeOf (lock.sign handle) :=
          .bind (.request trivial) fun _ => .bind (.request trivial) fun _ =>
            free_tryCall_bind (fun _ => .pure _) fun _ =>
              .bind (lock.free_release handle) fun _ => .fail _
        exact .bind signs fun _ => .pure _
      · dsimp only
        split
        · refine .bind (.request trivial) fun now => ?_
          split
          · exact .fail _
          · have retries : FreeOf (Host.ask (.pause lock.pause) >>= fun _ =>
                lock.attempts start budget true) :=
              .bind (.request trivial) fun _ => ih true
            split
            · exact .bind (free_log _ _) fun _ => retries
            · exact retries
        · exact .fail _

/-- **Taking a lock file** has to do with no section. -/
theorem free_acquire : FreeOf lock.acquire :=
  .bind (.request trivial) fun _ => .bind (free_makeDirectories _ _) fun _ => lock.free_attempts ..

end FileLock

/-! ## The storage -/

namespace FileStore

open Files

theorem looks_readJson (path : Path) : LooksOf (readJson path) := by
  refine .bind (looks_readDocument path) fun content => ?_
  cases content with
  | none => exact .pure none
  | some content =>
      dsimp only
      split
      · exact .pure _
      · exact .fail _

theorem looks_readDocumentFile (path : Path) : LooksOf (readDocumentFile path) := by
  refine .bind (looks_readJson path) fun value => ?_
  split
  · exact .pure none
  · exact .pure none
  · split
    · exact .pure _
    · exact .fail _

theorem looks_readCheckFile (path : Path) : LooksOf (readCheckFile path) := by
  refine .bind (looks_readJson path) fun value => ?_
  split
  · exact .pure none
  · exact .pure none
  · split
    · exact .pure _
    · exact .fail _

theorem free_deleteFiles (directory : Path) (wanted : Json → Bool) (limit : Storage.Limit)
    (removed : Nat) (names : List String) :
    FreeOf (deleteFiles directory wanted limit removed names) := by
  have deletes (path : Path) : FreeOf (deleteFile path wanted) := by
    refine .bind (looks_readDocumentFile path).free fun document => ?_
    cases document with
    | none => exact .pure none
    | some document =>
        dsimp only
        split
        · refine .bind (free_removeDocument path) fun isRemoved => ?_
          split
          · exact .pure _
          · exact .pure _
        · exact .pure none
  induction names generalizing removed with
  | nil => exact .pure []
  | cons name rest ih =>
      unfold deleteFiles
      refine .bind (.ofExcept _) fun reached => ?_
      split
      · exact .pure []
      · refine .bind (deletes _) fun document => ?_
        cases document with
        | none => exact ih removed
        | some document => exact .bind (ih _) fun _ => .pure _

variable (store : FileStore)

theorem free_create (collection : String) : FreeOf (store.create collection) := by
  refine .bind (looks_isDirectory _).free fun found => ?_
  split
  · exact .pure false
  · refine .bind (free_ensureDirectory _) fun _ => .bind (.request trivial) fun fresh =>
      .andFinally ?_ (free_callAs _ _)
    refine .bind (free_ensureDirectory _) fun _ => .bind (free_ensureDirectory _) fun _ => ?_
    refine free_tryCall_bind (fun _ => .pure _) fun errno => ?_
    dsimp only
    split
    · exact .pure _
    · exact .fail _

theorem free_drop (collection : String) : FreeOf (store.drop collection) := by
  refine .bind (.request trivial) fun fresh => free_tryCall_bind (fun _ => ?_) fun errno => ?_
  · exact free_tryCall_bind (fun _ => .pure _) fun errno => .bind (free_log _ _) fun _ => .pure _
  · dsimp only
    split
    · exact .pure _
    · exact .fail _

theorem free_createFile (collection : String) (path : Path) (content : Except Failure String) :
    FreeOf (store.createFile collection path content) := by
  refine .bind (.bind (looks_isDirectory _).free fun found => ?_) fun _ =>
    .bind (.ofExcept _) fun text => .bind (free_atomicCreate path text).outcome fun result => ?_
  · split
    · exact .pure ()
    · exact .fail _
  · split
    · exact .pure true
    · exact .pure false
    · exact .fail _

/-- **A scan** only looks. -/
theorem looks_scan (collection : String) (wanted : Json → Bool) :
    LooksOf (store.scan collection wanted) := by
  refine .bind (looks_directoryIdentity _) fun before => ?_
  cases before with
  | none => exact .pure []
  | some before =>
      refine .bind (looks_listFiles _ _) fun names => .bind
        (.bind (.forEach fun name _ => looks_readDocumentFile _) fun _ => .pure _) fun documents =>
          .bind (looks_directoryIdentity _) fun after => ?_
      split
      · exact .pure _
      · exact .pure []

theorem looks_collections : LooksOf store.collections := by
  refine .bind (looks_listEntries _ _) fun names =>
    .bind (.forEach fun name _ => ?_) fun _ => .pure _
  refine .bind (looks_isDirectory _) fun kept => ?_
  split
  · exact .pure _
  · exact .pure _

/-- **An operation that reads** only looks. -/
theorem looks_perform {op : Storage.Op .json} (reads : op.Reads) : LooksOf (store.perform op) := by
  cases op with
  | «exists» collection => exact looks_isDirectory _
  | collections => exact store.looks_collections
  | get collection id => exact .bind (looks_readDocumentFile _) fun _ => .pure _
  | scan collection query => exact store.looks_scan ..
  | checks collection =>
      exact .bind (looks_listFiles _ _) fun names =>
        .bind (.forEach fun name _ => looks_readCheckFile _) fun _ => .pure _
  | create | drop | put | replace | deleteMatching | deleteById | addCheck | dropCheck | close =>
      exact reads.elim

/-- **No operation of the storage in files** has to do with a section. -/
theorem free_perform (op : Storage.Op .json) : FreeOf (store.perform op) := by
  cases op with
  | «exists» | collections | get | scan | checks =>
      refine (store.looks_perform ?_).free
      trivial
  | create collection => exact store.free_create collection
  | drop collection => exact store.free_drop collection
  | put collection id document =>
      refine .bind (store.free_createFile ..) fun created => ?_
      split
      · exact .pure ()
      · exact .fail _
  | replace collection id document =>
      refine .bind (looks_readDocument _).free fun found => ?_
      cases found with
      | none => exact .pure false
      | some found =>
          exact .bind (.ofExcept _) fun _ => .bind (free_atomicWrite _ _) fun _ => .pure _
  | deleteMatching collection query limit =>
      exact .bind (looks_listFiles _ _).free fun names => free_deleteFiles ..
  | deleteById collection id => exact free_removeDocument _
  | addCheck collection name check => exact store.free_createFile ..
  | dropCheck collection name => exact free_removeDocument _
  | close => exact .pure ()

end FileStore

end DocStore

/-!
## How much is asked of files

What is done with a single file asks no more than a few requests, whatever the answers are; so it
ends when it has had that many turns.
-/

namespace DocStore

open Disk (Path)
open Host (Request ask callAs tryCall)

namespace Host

theorem asksAtMost_ask {request : Request} (free : request.Free) :
    (ask request).AsksAtMost Request.Free 1 := .ask free fun _ => .done _ _

theorem asksAtMost_tryCall (call : Disk.Call) : (tryCall call).AsksAtMost Request.Free 1 :=
  .ask trivial fun _ => .done _ _

theorem asksAtMost_callAs (call : Disk.Call) (failure : Disk.Errno → Failure) :
    (callAs call failure).AsksAtMost Request.Free 1 := .ask trivial fun _ => .done _ _

/-- Whatever a call answers, what follows it asks at most so much. -/
theorem asksAtMost_tryCall_bind {α : Type} {call : Disk.Call} {bound : Nat}
    {next : Except Disk.Errno call.Result → Action α}
    (succeeds : ∀ result, (next (.ok result)).AsksAtMost Request.Free bound)
    (fails : ∀ errno, (next (.error errno)).AsksAtMost Request.Free bound) :
    (tryCall call >>= next).AsksAtMost Request.Free (1 + bound) := by
  refine .bind (asksAtMost_tryCall call) fun answer => ?_
  cases answer with
  | ok result => exact succeeds result
  | error errno => exact fails errno

end Host

open Host (asksAtMost_ask asksAtMost_callAs asksAtMost_tryCall asksAtMost_tryCall_bind)

namespace Files

theorem asksAtMost_ensureDirectory (path : Path) :
    (ensureDirectory path).AsksAtMost Request.Free (1 + 0) := by
  unfold ensureDirectory
  split
  · exact .fail _
  · refine asksAtMost_tryCall_bind (fun stopped => ?_) fun _ => .fail _
    cases stopped with
    | none => exact .pure _
    | some _ => exact .fail _

theorem asksAtMost_writeTemporary (temporary : Path) (content : String) :
    (writeTemporary temporary content).AsksAtMost Request.Free (1 + ((1 + (1 + 1)) + (1 + 0))) := by
  refine asksAtMost_tryCall_bind (fun handle => ?_) fun _ => .pure _
  refine .bind ?_ fun filled => asksAtMost_tryCall_bind (fun _ => .pure _) fun _ => .pure _
  refine asksAtMost_tryCall_bind (fun _ => ?_) fun _ => .pure _
  refine asksAtMost_tryCall_bind (fun _ => .pure _) fun errno => ?_
  dsimp only
  split
  · exact asksAtMost_tryCall _
  · exact .pure _

theorem asksAtMost_discard (temporary : Path) :
    (discard temporary).AsksAtMost Request.Free (1 + 0) :=
  .bind (asksAtMost_tryCall _) fun _ => .pure _

/-- The creation of a file asks at most ten requests. -/
theorem asksAtMost_atomicCreate (target : Path) (content : String) :
    (atomicCreate target content).AsksAtMost Request.Free 10 := by
  show (atomicCreate target content).AsksAtMost Request.Free
    ((1 + 0) + (1 + ((1 + ((1 + (1 + 1)) + (1 + 0))) + (1 + ((1 + 0) + (1 + 0))))))
  refine .bind (asksAtMost_ensureDirectory _) fun _ => ?_
  refine .bind (asksAtMost_ask trivial) fun name => ?_
  refine .bind (asksAtMost_writeTemporary _ content) fun written => ?_
  cases written with
  | error errno => exact .fail _
  | ok _ =>
      refine asksAtMost_tryCall_bind (fun _ => ?_) fun errno => ?_
      · exact .bind (.bind (asksAtMost_tryCall _) fun _ => .pure _) fun _ => asksAtMost_discard _
      · refine .bind (asksAtMost_discard _) fun _ => ?_
        split <;> exact .fail _

theorem asksAtMost_readDocument (path : Path) :
    (readDocument path).AsksAtMost Request.Free (1 + 0) := by
  refine asksAtMost_tryCall_bind (fun _ => .pure _) fun errno => ?_
  dsimp only
  split
  · exact .pure _
  · exact .fail _

end Files

end DocStore
