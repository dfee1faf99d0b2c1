import DocStore.Disk.Lookup
import DocStore.Program
/-!
# Calls on a disk

Each call is one indivisible step: it either does all of what it says and answers, or leaves the
disk as it is and fails with an error number.  An open file is known by its identity, so that
writing goes to the file even after its name has changed.  `Disk.answer` carries out a call.
-/

set_option autoImplicit false

namespace DocStore.Disk

/-- What a call for the state of an entry tells. -/
structure Status where
  /-- Whether the entry is a directory. -/
  isDirectory : Bool
  /-- The identity of the entry. -/
  identity : Nat
deriving DecidableEq

/-- Where the creation of directories stopped, and why. -/
structure Obstacle where
  /-- The path of the directory that could not be created. -/
  path : Path
  /-- Why it could not be created. -/
  errno : Errno
deriving DecidableEq

/-- The kinds of entries that a listing tells apart. -/
inductive EntryKind where
  | file
  | directory
  | link
deriving DecidableEq

/-- The kind of an entry. -/
def Entry.kind : Entry → EntryKind
  | file _ _ => .file
  | directory _ => .directory
  | link _ => .link

/-- A call. -/
inductive Call where
  /-- Tell what a path leads to. -/
  | status (path : Path)
  /-- Read a whole file. -/
  | read (path : Path)
  /-- List a directory. -/
  | list (path : Path)
  /-- Create a directory and all that are missing above it, up to an obstacle. -/
  | makeDirectories (path : Path)
  /-- Open a file for writing, which must not exist. -/
  | openNew (path : Path)
  /-- Open a file for writing, emptied if it exists. -/
  | openEmpty (path : Path)
  /-- Write the content of an open file. -/
  | write (handle : Nat) (content : String)
  /-- Bring the content of an open file to the device. -/
  | syncContent (handle : Nat)
  /-- Bring an open file, content and state, to the device. -/
  | syncFile (handle : Nat)
  /-- Close an open file. -/
  | close (handle : Nat)
  /-- Move an entry, replacing what is at the target. -/
  | rename (source target : Path)
  /-- Make a second entry for a file. -/
  | link (source target : Path)
  /-- Remove the entry of a file or link. -/
  | unlink (path : Path)
  /-- Remove whatever is at or below a path, if anything. -/
  | removeTree (path : Path)
  /-- Bring the entries of a directory to the device. -/
  | syncDirectory (path : Path)
deriving DecidableEq

/-- What a call answers when it succeeds. -/
abbrev Call.Result : Call → Type
  | .status _ => Status
  | .read _ => String
  | .list _ => List (String × EntryKind)
  | .makeDirectories _ => Option Obstacle
  | .openNew _ | .openEmpty _ => Nat
  | _ => Unit

/-- What a call answers. -/
abbrev Call.Answer (call : Call) : Type := Except Errno call.Result

/-- Tell what a path leads to. -/
def status (disk : Disk) (path : Path) : Except Errno Status := do
  let target ← disk.locate path
  match target.entry with
  | some (.directory identity) => .ok ⟨true, identity⟩
  | some (.file identity _) => if target.slash then .error .notDirectory else .ok ⟨false, identity⟩
  | some (.link _) => .error .loop
  | none => .error .noEntry

/-- Read a whole file. -/
def read (disk : Disk) (path : Path) : Except Errno String := do
  let target ← disk.locate path
  match target.entry with
  | some (.file _ content) => if target.slash then .error .notDirectory else .ok content
  | some (.directory _) => .error .isDirectory
  | some (.link _) => .error .loop
  | none => .error .noEntry

/-- List a directory. -/
def list (disk : Disk) (path : Path) : Except Errno (List (String × EntryKind)) := do
  let target ← disk.locate path
  match target.entry with
  | some (.directory _) =>
      .ok ((disk.listing target.place).map fun found => (found.1, found.2.kind))
  | some _ => .error .notDirectory
  | none => .error .noEntry

/-- Create one directory. -/
def makeDirectory (disk : Disk) (path : Path) : Except Errno Disk := do
  let target ← disk.locateEntry path
  match target.entry with
  | some _ => .error .exists
  | none => .ok (disk.addDirectory target.place)

/-- What becomes of the creation of a directory that failed.  It does no harm where a directory is
there, unless a permission is missing or something above is no directory.  Where something else is
there, the error depends on whether directories below it are still to be created. -/
def obstacle? (disk : Disk) (path : Path) (pending : Bool) (errno : Errno) : Option Obstacle :=
  let blocked := if errno = .exists ∧ pending then Errno.notDirectory else .exists
  if errno = .access ∨ errno = .notDirectory ∨ errno = .notPermitted then some ⟨path, errno⟩
  else
    match disk.status path with
    | .ok status => if status.isDirectory then none else some ⟨path, blocked⟩
    | .error other => some ⟨path, if blocked = .notDirectory then .notDirectory else other⟩

/-- Create one directory, where one may be already. -/
def ensureDirectory (disk : Disk) (path : Path) (pending : Bool) : Option Obstacle × Disk :=
  match disk.makeDirectory path with
  | .ok disk => (none, disk)
  | .error errno => (disk.obstacle? path pending errno, disk)

/-- Create a directory, given backwards, and all that are missing above it.  What has been created
before an obstacle stays. -/
def ensureAll (disk : Disk) (pending : Bool) : List String → Option Obstacle × Disk
  | [] => (some ⟨[], .noEntry⟩, disk)
  | name :: above =>
      let path := (name :: above).reverse
      match disk.makeDirectory path with
      | .error .noEntry =>
          match disk.ensureAll true above with
          | (none, disk) => disk.ensureDirectory path pending
          | stopped => stopped
      | _ => disk.ensureDirectory path pending

/-- Create a directory and all that are missing above it, up to an obstacle. -/
def makeDirectories (disk : Disk) (path : Path) : Except Errno (Option Obstacle) × Disk :=
  match checkPath path with
  | .ok () =>
      let (stopped, disk) := disk.ensureAll false path.reverse
      (.ok stopped, disk)
  | .error errno => (.error errno, disk)

/-- Open a file that must not exist. -/
def openNew (disk : Disk) (path : Path) : Except Errno (Nat × Disk) := do
  let target ← disk.locateEntry path
  if target.slash then .error .isDirectory
  else
    match target.entry with
    | some _ => .error .exists
    | none => .ok (disk.nextIdentity, disk.addFile target.place)

/-- Open a file and empty it, or create it. -/
def openEmpty (disk : Disk) (path : Path) : Except Errno (Nat × Disk) := do
  let target ← disk.locate path
  if target.slash then .error .isDirectory
  else
    match target.entry with
    | some (.file identity _) => .ok (identity, disk.setContent identity "")
    | some (.directory _) => .error .isDirectory
    | some (.link _) => .error .loop
    | none => .ok (disk.nextIdentity, disk.addFile target.place)

/-- Move an entry to a free place. -/
def relocate (disk : Disk) (source target : Place) : Disk :=
  (disk.without target).move source target

/-- Move the entry at one place to another. -/
def renameEntry (disk : Disk) (source target : Target) (entry : Entry) : Except Errno Disk :=
  if source.place = target.place then .ok disk
  else if entry.isDirectory then
    if below source.place target.place then .error .invalid
    else if below target.place source.place then .error .notEmpty
    else
      match target.entry with
      | none => .ok (disk.relocate source.place target.place)
      | some (.directory _) =>
          if disk.isVacant target.place then .ok (disk.relocate source.place target.place)
          else .error .notEmpty
      | some _ => .error .notDirectory
  else if source.slash || target.slash then .error .notDirectory
  else
    match target.entry with
    | some (.directory _) => .error .isDirectory
    | some other =>
        if other = entry ∧ entry.isFile then .ok disk
        else .ok (disk.relocate source.place target.place)
    | none => .ok (disk.relocate source.place target.place)

/-- Move an entry, replacing what is at the target. -/
def rename (disk : Disk) (source target : Path) : Except Errno Disk := do
  let source ← disk.locateEntry source
  let target ← disk.locateEntry target
  match source.entry with
  | none => .error .noEntry
  | some entry => disk.renameEntry source target entry

/-- Make a second entry for a file. -/
def addLink (disk : Disk) (source target : Path) : Except Errno Disk := do
  let source ← disk.locateEntry source
  match source.entry with
  | none => .error .noEntry
  | some entry =>
      let target ← disk.locateEntry target
      if target.entry.isSome then .error .exists
      else if target.slash then .error .noEntry
      else if entry.isDirectory then .error .notPermitted
      else .ok (disk.put target.place entry)

/-- Make a link at a path that must be free.  The target need not lead anywhere, but it has to be
the text of a path. -/
def makeLink (disk : Disk) (path : Path) (target : String) : Except Errno Disk := do
  checkText target
  let place ← disk.locateEntry path
  match place.entry with
  | some _ => .error .exists
  | none => if place.slash then .error .noEntry else .ok (disk.put place.place (.link target))

/-- Remove the entry of a file or link. -/
def unlink (disk : Disk) (path : Path) : Except Errno Disk := do
  let target ← disk.locateEntry path
  match target.entry with
  | none => .error .noEntry
  | some (.directory _) => .error .isDirectory
  | some _ => if target.slash then .error .notDirectory else .ok (disk.without target.place)

/-- Remove whatever is at or below a path.  A path that asks for a directory removes nothing else,
not even a link to one. -/
def removeTree (disk : Disk) (path : Path) : Except Errno Disk :=
  match disk.locateEntry path with
  | .ok target =>
      if target.slash then
        match disk.status path with
        | .ok _ =>
            .ok (if target.entry.any Entry.isDirectory then disk.without target.place else disk)
        | .error .noEntry => .ok disk
        | .error errno => .error errno
      else .ok (disk.without target.place)
  | .error .noEntry => .ok disk
  | .error errno => .error errno

/-- The answer of a call that only reads. -/
def reading {α : Type} (disk : Disk) (result : Except Errno α) : Except Errno α × Disk :=
  (result, disk)

/-- The answer of a call that changes the disk. -/
def changing (disk : Disk) : Except Errno Disk → Except Errno Unit × Disk
  | .ok changed => (.ok (), changed)
  | .error errno => (.error errno, disk)

/-- The answer of a call that changes the disk and tells something. -/
def opening (disk : Disk) : Except Errno (Nat × Disk) → Except Errno Nat × Disk
  | .ok (handle, changed) => (.ok handle, changed)
  | .error errno => (.error errno, disk)

/-- Carry out a call. -/
def answer (disk : Disk) : (call : Call) → call.Answer × Disk
  | .status path => disk.reading (disk.status path)
  | .read path => disk.reading (disk.read path)
  | .list path => disk.reading (disk.list path)
  | .makeDirectories path => disk.makeDirectories path
  | .openNew path => disk.opening (disk.openNew path)
  | .openEmpty path => disk.opening (disk.openEmpty path)
  | .write handle content => (.ok (), disk.setContent handle content)
  | .syncContent _ | .syncFile _ | .close _ => (.ok (), disk)
  | .rename source target => disk.changing (disk.rename source target)
  | .link source target => disk.changing (disk.addLink source target)
  | .unlink path => disk.changing (disk.unlink path)
  | .removeTree path => disk.changing (disk.removeTree path)
  | .syncDirectory _ => (.ok (), disk)

end DocStore.Disk
