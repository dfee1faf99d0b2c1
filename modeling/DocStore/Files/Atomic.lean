import DocStore.Host.Interface
import DocStore.Sorting
/-!
# Files that are written as a whole

A file is written under a temporary name beside its place, brought to the device, and only then
moved to its place, or linked to it when the place must be free.  So a reader sees the old content,
the new one or no file, but never a part.  Reading a file that is not there gives nothing, and
removing it does nothing; every other failed call becomes a fault that names the path.
-/

set_option autoImplicit false

namespace DocStore.Files

open Disk (Path Errno)
open Host (Action callAs tryCall ask)

/-- Create a directory and all that are missing above it. -/
def ensureDirectory (path : Path) : Action Unit :=
  if path = [] then
    Attempt.fail (.database
      ⟨.directory "", some (.wrongType "Directory path must be a non-empty string")⟩)
  else Host.makeDirectories path fun obstacle => .ofCall (.directory path.text) obstacle.errno

/-- The temporary path for a target, with a name that nobody has used. -/
def temporaryPath (target : Path) (name : String) : Path :=
  target.parent.child ("." ++ target.name ++ "." ++ name ++ ".tmp")

/-- Whether a device says that it cannot synchronize contents alone. -/
def needsFullSync (errno : Errno) : Bool :=
  errno = .notSupported ∨ errno = .noCall ∨ errno = .invalid

/-- Bring the content of an open file to the device, and the whole file where contents alone cannot
be brought. -/
def flush (handle : Nat) : Action (Except Errno Unit) := do
  match ← tryCall (.syncContent handle) with
  | .ok () => return .ok ()
  | .error errno =>
      if needsFullSync errno then tryCall (.syncFile handle) else return .error errno

/-- Fill an open file and bring it to the device. -/
def fill (handle : Nat) (content : String) : Action (Except Errno Unit) := do
  match ← tryCall (.write handle content) with
  | .ok () => flush handle
  | .error errno => return .error errno

/-- Write a new file under a temporary path and close it. -/
def writeTemporary (temporary : Path) (content : String) : Action (Except Errno Unit) := do
  match ← tryCall (.openEmpty temporary) with
  | .error errno => return .error errno
  | .ok handle =>
      let filled ← fill handle content
      match ← tryCall (.close handle) with
      | .ok () => return filled
      | .error errno => return .error errno

/-- Remove a temporary file, as far as that is possible. -/
def discard (temporary : Path) : Action Unit := do
  let _ ← tryCall (.unlink temporary)

/-- Bring the entries of a directory to the device, as far as that is possible. -/
def syncEntries (directory : Path) : Action Unit := do
  let _ ← tryCall (.syncDirectory directory)

/-- Write a file as a whole, replacing what is there. -/
def atomicWrite (target : Path) (content : String) : Action Unit := do
  ensureDirectory target.parent
  let temporary := temporaryPath target (← ask .freshName)
  match ← writeTemporary temporary content with
  | .error errno => Attempt.fail (.ofCall (.write target.text) errno)
  | .ok () =>
      match ← tryCall (.rename temporary target) with
      | .ok () => syncEntries target.parent
      | .error errno => do
          discard temporary
          Attempt.fail (.ofCall (.write target.text) errno)

/-- Write a file as a whole at a place that must be free. -/
def atomicCreate (target : Path) (content : String) : Action Unit := do
  ensureDirectory target.parent
  let temporary := temporaryPath target (← ask .freshName)
  match ← writeTemporary temporary content with
  | .error errno => Attempt.fail (.ofCall (.write target.text) errno)
  | .ok () =>
      match ← tryCall (.link temporary target) with
      | .ok () => do
          syncEntries target.parent
          discard temporary
      | .error errno => do
          discard temporary
          if errno = .exists then Attempt.fail (.fileExists target.text)
          else Attempt.fail (.ofCall (.write target.text) errno)

/-- The content of a file, or nothing where there is no file. -/
def readDocument (path : Path) : Action (Option String) := do
  match ← tryCall (.read path) with
  | .ok content => return some content
  | .error errno =>
      if errno = .noEntry then return none
      else Attempt.fail (.ofCall (.read path.text) errno)

/-- Remove a file, and tell whether there was one. -/
def removeDocument (path : Path) : Action Bool := do
  match ← tryCall (.unlink path) with
  | .ok () => return true
  | .error errno =>
      if errno = .noEntry then return false
      else Attempt.fail (.ofCall (.remove path.text) errno)

/-- The names of the entries of one kind in a directory, in the order of their units; none where
there is no directory. -/
def listEntries (directory : Path) (kind : Disk.EntryKind) : Action (List String) := do
  match ← tryCall (.list directory) with
  | .ok entries =>
      return Sorting.sort Text.before
        ((entries.filter fun entry => entry.2 == kind).map Prod.fst)
  | .error errno =>
      if errno = .noEntry then return []
      else Attempt.fail (.ofCall (.list directory.text) errno)

/-- Whether a name is hidden. -/
def isHidden (name : String) : Bool :=
  name.toList.head? == some '.'

/-- Whether a name has an ending; the point that starts the ending may be left out. -/
def hasEnding (ending name : String) : Bool :=
  let ending := if isHidden ending then ending.toList else '.' :: ending.toList
  ending.isSuffixOf name.toList

/-- The names of the files of a directory that are not hidden and have an ending, in the order of
their units; the empty ending fits every name. -/
def listFiles (directory : Path) (ending : String) : Action (List String) := do
  let names ← listEntries directory .file
  return names.filter fun name => !isHidden name && (ending = "" || hasEnding ending name)

/-- The names of the directories in a directory, in the order of their units. -/
def listDirectories (directory : Path) : Action (List String) :=
  listEntries directory .directory

/-- Whether a path leads to a directory. -/
def isDirectory (path : Path) : Action Bool := do
  match ← tryCall (.status path) with
  | .ok status => return status.isDirectory
  | .error errno =>
      if errno = .noEntry ∨ errno = .notDirectory then return false
      else Attempt.fail (.ofCall (.directory path.text) errno)

/-- The identity of the directory that a path leads to, or nothing where there is none. -/
def directoryIdentity (path : Path) : Action (Option Nat) := do
  match ← tryCall (.status path) with
  | .ok status => return if status.isDirectory then some status.identity else none
  | .error errno =>
      if errno = .noEntry ∨ errno = .notDirectory then return none
      else Attempt.fail (.ofCall (.directory path.text) errno)

end DocStore.Files
