import DocStore.Host.Interface
/-!
# Lock files

A lock is held by whoever has created its file; creation fails while the file is there.  `acquire`
tries again after a pause until the time since its start exceeds a limit.  Every pause takes at
least one millisecond, so the number of attempts is bounded by the limit; the bound is only met when
the clock stands still.
-/

set_option autoImplicit false

namespace DocStore

open Disk (Path)
open Host (Action callAs tryCall ask)

/-- A lock that a file stands for. -/
structure FileLock where
  /-- The path of the file. -/
  path : Path
  /-- For how many milliseconds the lock is waited for. -/
  timeout : Number
  /-- How errors tell for how long the lock is waited for. -/
  timeoutShown : Caller.Shown
  /-- How many milliseconds pass between two attempts. -/
  retry : Number
  /-- Who is told that the lock is waited for. -/
  logger : Log.Logger

namespace FileLock

/-- For how many milliseconds a lock is waited for, where nothing else is said. -/
def defaultTimeout : Number := .ofNat 10000

/-- How many milliseconds pass between two attempts, where nothing else is said. -/
def defaultRetry : Number := .ofNat 25

/-- A number that a caller gives, or else a usual one; what is no number is an undefined one. -/
def optionOr (usual : Number) (given : Caller.Value) : Number :=
  if given.isMissing then usual else given.number?.getD .undefined

/-- How errors tell a number that a caller gives, or else a usual one. -/
def shownOr (usual : Number) (given : Caller.Value) : Caller.Shown :=
  if given.isMissing then .ofNumber usual
  else (Caller.Shown.ofView? (.ofValue given)).getD (.ofNumber .undefined)

/-- The lock of a file; what is not said is as usual. -/
def ofOptions (path : Path) (timeout retry : Caller.Value) (logger : Log.Logger) : FileLock where
  path := path
  timeout := optionOr defaultTimeout timeout
  timeoutShown := shownOr defaultTimeout timeout
  retry := optionOr defaultRetry retry
  logger := logger

/-- The longest pause, in milliseconds. -/
def maxPause : Nat := 2147483647

/-- The pause between two attempts, in whole milliseconds. -/
def pause (lock : FileLock) : Nat :=
  match lock.retry.floor? with
  | some milliseconds =>
      if 1 ≤ milliseconds ∧ milliseconds ≤ maxPause then milliseconds else 1
  | none => 1

/-- How many attempts stand for no limit. -/
def boundlessAttempts : Nat := 1000000000000000

/-- How many attempts are made at most, when the clock advances during every pause. -/
def maxAttempts (lock : FileLock) : Nat :=
  match lock.timeout.floor? with
  | some milliseconds => milliseconds / lock.pause + 2
  | none => boundlessAttempts

/-- A failed call on the file of the lock. -/
def callFailure (lock : FileLock) (call : String) (errno : Disk.Errno) : Failure :=
  .system ⟨errno, call, some lock.path.text⟩

/-- Close the file and remove it; a file that is gone already is no failure. -/
def release (lock : FileLock) (handle : Nat) : Action Unit := do
  match ← tryCall (.close handle) with
  | .error errno =>
      if errno = .noEntry then return ()
      else Attempt.fail (.system ⟨errno, "close", none⟩)
  | .ok () =>
      match ← tryCall (.unlink lock.path) with
      | .ok () => return ()
      | .error errno =>
          if errno = .noEntry then return () else Attempt.fail (lock.callFailure "unlink" errno)

/-- What the file says about its creator. -/
def record (processId : Nat) (time : Int) : String :=
  Json.line (.object
    [("pid", Json.number (.ofNat processId)), ("acquiredAt", Json.string (Calendar.isoText time))])

/-- Write the record into a new lock file.  A lock whose file cannot be written is given back. -/
def sign (lock : FileLock) (handle : Nat) : Action Unit := do
  let content := record (← ask .processId) (← ask .now)
  match ← tryCall (.write handle content) with
  | .ok () => return ()
  | .error errno => do
      lock.release handle
      Attempt.fail (.system ⟨errno, "write", none⟩)

/-- Say that the lock is waited for. -/
def announce (lock : FileLock) : Action Unit :=
  Host.log lock.logger
    ⟨.debug, "lock.wait", ⟨none, some lock.path.text, none⟩⟩

/-- Try to create the file a number of times; `waited` says that an attempt has failed before. -/
def attempts (lock : FileLock) (start : Int) : Nat → Bool → Action Nat
  | 0, _ => Attempt.fail (.stated "The clock does not advance")
  | budget + 1, waited => do
      match ← tryCall (.openNew lock.path) with
      | .ok handle => do
          lock.sign handle
          return handle
      | .error errno =>
          if errno = .exists then do
            let elapsed := ((← ask .now) - start).toNat
            if lock.timeout.ltNat elapsed then
              Attempt.fail (.ofFault (.lockTimeout lock.path.text lock.timeoutShown))
            else do
              if !waited then lock.announce
              ask (.pause lock.pause)
              lock.attempts start budget true
          else Attempt.fail (lock.callFailure "open" errno)

/-- Take the lock, and give the handle of its file. -/
def acquire (lock : FileLock) : Action Nat := do
  let start ← ask .now
  Host.makeDirectories lock.path.parent fun obstacle =>
    .system ⟨obstacle.errno, "mkdir", some obstacle.path.text⟩
  lock.attempts start lock.maxAttempts false

end FileLock

/-- A lock together with the handle of its file, while it is held. -/
structure LockHolder where
  /-- The lock. -/
  lock : FileLock
  /-- The handle of the file, while the lock is held. -/
  handle : Option Nat

namespace LockHolder

/-- Whether the lock is held. -/
def isAcquired (holder : LockHolder) : Bool :=
  holder.handle.isSome

/-- Take the lock; it cannot be taken twice. -/
def acquire (holder : LockHolder) : Action (Except Failure Unit × LockHolder) := do
  match holder.handle with
  | some _ => return (.error (.stated "Lock already acquired"), holder)
  | none =>
      match ← holder.lock.acquire.outcome with
      | .ok handle => return (.ok (), { holder with handle := some handle })
      | .error failure => return (.error failure, holder)

/-- Give the lock back, if it is held; afterwards it is not held, even if that failed. -/
def release (holder : LockHolder) : Action (Except Failure Unit × LockHolder) := do
  match holder.handle with
  | none => return (.ok (), holder)
  | some handle =>
      let result ← (holder.lock.release handle).outcome
      return (result, { holder with handle := none })

/-- Do something while holding the lock, and give it back whatever came of it. -/
def withLock {α : Type} (holder : LockHolder) (body : LockHolder → Action α) :
    Action (Except Failure α × LockHolder) := do
  let (taken, holder) ← holder.acquire
  match taken with
  | .error failure => return (.error failure, holder)
  | .ok () =>
      let result ← (body holder).outcome
      let (given, holder) ← holder.release
      match given with
      | .ok () => return (result, holder)
      | .error failure => return (.error failure, holder)

end LockHolder

end DocStore
