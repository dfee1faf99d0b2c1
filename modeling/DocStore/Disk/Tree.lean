import DocStore.Disk.Path
/-!
# The tree of a disk

A disk is a tree of directories, files and links.  It is given by its entries: each has a place,
which is the list of names that lead to it from the top, and the top itself is a directory that is
always there.  Directories and files have an identity, which no later one gets again; a file may
have several entries, all with its identity and its content.
-/

set_option autoImplicit false

namespace DocStore

namespace Disk

/-- An entry of a directory. -/
inductive Entry where
  /-- A file with its content. -/
  | file (identity : Nat) (content : String)
  | directory (identity : Nat)
  /-- A link to what a text names from the place of the link. -/
  | link (target : String)
deriving DecidableEq

/-- Whether an entry is a directory. -/
def Entry.isDirectory : Entry → Bool
  | directory _ => true
  | _ => false

/-- Whether an entry is a file. -/
def Entry.isFile : Entry → Bool
  | file _ _ => true
  | _ => false

/-- A place in the tree, as the names that lead to it from the top. -/
abbrev Place := List String

end Disk

/-- A disk. -/
structure Disk where
  /-- The entries below the top, each with its place. -/
  entries : List (Disk.Place × Disk.Entry)
  /-- An identity above all that have been given. -/
  nextIdentity : Nat
deriving DecidableEq

namespace Disk

/-- A disk with nothing on it. -/
def empty : Disk := ⟨[], 1⟩

/-- The entry at a place. -/
def entry? (disk : Disk) : Place → Option Entry
  | [] => some (.directory 0)
  | place => disk.entries.lookup place

/-- Whether a place lies at or below another one. -/
def below (above place : Place) : Bool :=
  above.isPrefixOf place

/-- The disk with an entry put at a place. -/
def put (disk : Disk) (place : Place) (entry : Entry) : Disk :=
  { disk with entries := disk.entries.filter (fun old => old.1 != place) ++ [(place, entry)] }

/-- The disk without what lies at or below a place. -/
def without (disk : Disk) (place : Place) : Disk :=
  { disk with entries := disk.entries.filter fun old => !below place old.1 }

/-- The disk with a new directory at a place. -/
def addDirectory (disk : Disk) (place : Place) : Disk :=
  { disk.put place (.directory disk.nextIdentity) with nextIdentity := disk.nextIdentity + 1 }

/-- The disk with a new empty file at a place. -/
def addFile (disk : Disk) (place : Place) : Disk :=
  { disk.put place (.file disk.nextIdentity "") with nextIdentity := disk.nextIdentity + 1 }

/-- The disk with a file's content set, wherever the file has entries. -/
def setContent (disk : Disk) (identity : Nat) (content : String) : Disk :=
  { disk with
    entries := disk.entries.map fun (place, entry) =>
      match entry with
      | .file other old => (place, .file other (if other = identity then content else old))
      | entry => (place, entry) }

/-- The place of an entry after all that lies at or below one place has gone to another. -/
def moved (source target place : Place) : Place :=
  if below source place then target ++ place.drop source.length else place

/-- The disk with what lies at or below one place moved to another, where nothing may be. -/
def move (disk : Disk) (source target : Place) : Disk :=
  { disk with entries := disk.entries.map fun (place, entry) => (moved source target place, entry) }

/-- The names and entries of a directory. -/
def listing (disk : Disk) (directory : Place) : List (String × Entry) :=
  disk.entries.filterMap fun (place, entry) =>
    match place.getLast? with
    | some name => if place.dropLast = directory then some (name, entry) else none
    | none => none

/-- Whether nothing lies below a place. -/
def isVacant (disk : Disk) (place : Place) : Bool :=
  (disk.listing place).isEmpty

end Disk

end DocStore
