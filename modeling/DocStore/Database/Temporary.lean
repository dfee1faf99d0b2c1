import DocStore.Database.Session
/-!
# Databases that do not last

Something can be done with a new directory, or with a database in one, that is removed afterwards
whatever came of it.
-/

set_option autoImplicit false

namespace DocStore.Database

/-- How the names of new directories start. -/
def temporaryMark : String := "docstore-"

/-- Do something with a new directory below a place and remove it afterwards. -/
def withTemporaryDirectory {α : Type} (place : Disk.Path) (body : Disk.Path → Host.Action α) :
    Host.Action α := do
  let directory := place.child (temporaryMark ++ (← Host.ask .freshName))
  Files.ensureDirectory directory
  (body directory).andFinally (FileStore.sweep directory)

/-- Do something with a new database below a place, then close it and remove it. -/
def withTemporary {α : Type} (place : Disk.Path) (logger : Log.Logger)
    (body : Session → Disk.Path → Host.Action α) : Host.Action α :=
  withTemporaryDirectory place fun directory =>
    let store := FileStore.ofOptions directory .absent .absent .absent logger
    let session := Session.start 0 (.files store) logger
    (body session directory).andFinally (do let _ ← session.close)

end DocStore.Database
