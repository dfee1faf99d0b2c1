import DocStore.Database.Interface
import DocStore.Files.Atomic
import DocStore.Files.Key
import DocStore.Json.Reader
import DocStore.Lock.File
import DocStore.Query.Containment
/-!
# The storage in files

Below a root directory every collection has a directory of its own, with one directory for its
documents and one for its constraints; each document and each constraint is a file, named after its
key.  A collection exists exactly when it has a directory for documents.  It is created under a
hidden name and then moved to its place, and dropped by moving it to a hidden name, so that it comes
and goes as a whole.  Locks are files in a hidden directory below the root.

`FileStore.perform` carries out an operation of a storage.
-/

set_option autoImplicit false

namespace DocStore

open Disk (Path Errno)
open Host (Action callAs tryCall ask)
open Files

/-- A storage in files. -/
structure FileStore where
  /-- The root directory. -/
  root : Path
  /-- How stored values are laid out. -/
  layout : Json.Layout
  /-- For how many milliseconds a lock is waited for, where that is said. -/
  lockTimeout : Caller.Value
  /-- How many milliseconds pass between two attempts to take a lock, where that is said. -/
  lockRetry : Caller.Value
  /-- Who is told about what is going on. -/
  logger : Log.Logger

namespace FileStore

/-- The indentation of stored values, where nothing else is said. -/
def defaultIndent : Number := .ofNat 2

/-- The storage below a root directory; what is not said is as usual. -/
def ofOptions (root : Path) (indent timeout retry : Caller.Value) (logger : Log.Logger) :
    FileStore where
  root := root
  layout := if indent.isMissing then .ofNumber defaultIndent else Caller.layoutOf indent
  lockTimeout := timeout
  lockRetry := retry
  logger := logger

/-! ## Where things are -/

/-- The directory of a collection. -/
def collectionPath (store : FileStore) (collection : String) : Path :=
  store.root.append collection

/-- The directory for the documents of a collection. -/
def documentsPath (store : FileStore) (collection : String) : Path :=
  (store.collectionPath collection).child "docs"

/-- The directory for the constraints of a collection. -/
def checksPath (store : FileStore) (collection : String) : Path :=
  (store.collectionPath collection).child "constraints"

/-- The file of a document. -/
def documentPath (store : FileStore) (collection id : String) : Path :=
  (store.documentsPath collection).child (keyName id)

/-- The file of a constraint. -/
def checkPath (store : FileStore) (collection name : String) : Path :=
  (store.checksPath collection).child (keyName name)

/-- The lock of a collection. -/
def lockOf (store : FileStore) (collection : String) : FileLock :=
  .ofOptions ((store.root.child ".locks").append (collection ++ ".lock")) store.lockTimeout
    store.lockRetry store.logger

/-! ## Reading stored values -/

/-- What makes a file unreadable that holds JSON of another sort. -/
def damaged (path : Path) (message : String) : Failure :=
  .database ⟨.read path.text, some (.stated message)⟩

/-- The JSON value of a file, or nothing where there is no file. -/
def readJson (path : Path) : Action (Option Json) := do
  match ← readDocument path with
  | none => return none
  | some content =>
      match Json.parse? content with
      | some value => return some value
      | none => Attempt.fail (.database ⟨.read path.text, some .malformedJson⟩)

/-- The identifier of a value that is a document. -/
def documentId? (value : Json) : Option String :=
  (value.field? "_id").bind Json.string?

/-- The document of a file.  A file that holds null counts as absent. -/
def readDocumentFile (path : Path) : Action (Option Json) := do
  match ← readJson path with
  | none | some (.leaf .null) => return none
  | some value =>
      if (documentId? value).isSome then return some value
      else Attempt.fail (damaged path "File does not hold a document with a string _id")

/-- The documents of some files of a directory. -/
def readDocuments (directory : Path) (names : List String) : Action (List Json) := do
  let documents ← Attempt.forEach names fun name => readDocumentFile (directory.child name)
  return documents.filterMap id

/-- The constraint that a value keeps under a name. -/
def storedCheck? (value : Json) : Option (StoredCheck .json) := do
  let constraint ← (value.field? "constraint").bind Constraint.ofJson?
  let name ← (value.field? "name").bind Json.string?
  return ⟨name, constraint⟩

/-- The constraint of a file.  A file that holds null counts as absent. -/
def readCheckFile (path : Path) : Action (Option (StoredCheck .json)) := do
  match ← readJson path with
  | none | some (.leaf .null) => return none
  | some value =>
      match storedCheck? value with
      | some check => return some check
      | none => Attempt.fail (damaged path "File does not hold a constraint record")

/-! ## Writing stored values -/

/-- The text of the file of a document. -/
def documentText (store : FileStore) (document : Json) : String :=
  Json.canonicalText store.layout .document document

/-- The text of the file of a constraint. -/
def checkText (store : FileStore) (check : StoredCheck .json) : String :=
  Json.canonicalText store.layout .alphabetical check.toJson

/-! ## Operations -/

/-- Whether a collection exists. -/
def exists? (store : FileStore) (collection : String) : Action Bool :=
  isDirectory (store.documentsPath collection)

/-- Prepare an empty collection under a hidden name and move it to its place. -/
def stage (store : FileStore) (collection : String) (staging : Path) : Action Bool := do
  ensureDirectory (staging.child "docs")
  ensureDirectory (staging.child "constraints")
  let target := store.collectionPath collection
  match ← tryCall (.rename staging target) with
  | .ok () => return true
  | .error errno =>
      if errno = .notEmpty ∨ errno = .exists then return false
      else Attempt.fail (.ofCall (.directory target.text) errno)

/-- Remove what is left of a hidden directory. -/
def sweep (path : Path) : Action Unit :=
  callAs (.removeTree path) fun errno => .system ⟨errno, "rm", some path.text⟩

/-- Create a collection unless it exists. -/
def create (store : FileStore) (collection : String) : Action Bool := do
  if ← store.exists? collection then return false
  ensureDirectory store.root
  let staging := store.root.child (".staging-" ++ (← ask .freshName))
  (store.stage collection staging).andFinally (sweep staging)

/-- Drop a collection. -/
def drop (store : FileStore) (collection : String) : Action Bool := do
  let trash := store.root.child (".trash-" ++ (← ask .freshName))
  let source := store.collectionPath collection
  match ← tryCall (.rename source trash) with
  | .error errno =>
      if errno = .noEntry then return false
      else Attempt.fail (.ofCall (.directory source.text) errno)
  | .ok () =>
      match ← tryCall (.removeTree trash) with
      | .ok () => return true
      | .error errno => do
          let details := Json.line (.object [("error", Json.string (Cause.system errno).text)])
          Host.log store.logger
            ⟨.warn, "collection.trash_cleanup_failed",
              ⟨some (Log.subjectText collection ""), some trash.text, some details⟩⟩
          return true

/-- The names of all collections. -/
def collections (store : FileStore) : Action (List String) := do
  let names ← listDirectories store.root
  let found ← Attempt.forEach (names.filter fun name => !isHidden name) fun name => do
    let kept ← isDirectory ((store.root.child name).child "docs")
    return if kept then [name] else []
  return found.flatten

/-- Fail unless a collection exists in which a file is to be created. -/
def requireCollection (store : FileStore) (collection : String) (path : Path) : Action Unit := do
  if ← store.exists? collection then return ()
  else
    Attempt.fail (.database
      ⟨.write path.text, some (.stated (Storage.missingMessage collection))⟩)

/-- Create the file of a new document or constraint, and tell whether its place was free.  That
there is no text to be written matters only after the collection has been found. -/
def createFile (store : FileStore) (collection : String) (path : Path)
    (content : Except Failure String) : Action Bool := do
  store.requireCollection collection path
  let content ← Attempt.ofExcept content
  match ← (atomicCreate path content).outcome with
  | .ok () => return true
  | .error (.fileExists _) => return false
  | .error failure => Attempt.fail failure

/-- Keep the text of a new document in its file; `id` is how an error shows the identifier. -/
def putText (store : FileStore) (collection : String) (id : Caller.Shown) (path : Path)
    (content : Except Failure String) : Action Unit := do
  if ← store.createFile collection path content then return ()
  else
    Attempt.fail (.database
      ⟨.duplicateId (.ofString collection) id, some (.fileExists path.text)⟩)

/-- The document of a file, if it has an identifier. -/
def getFrom (path : Path) (id : String) : Action (Option Json) := do
  let document ← readDocumentFile path
  return document.filter fun value => documentId? value == some id

/-- Replace the text of a file, if there is one. -/
def replaceText (path : Path) (content : Except Failure String) : Action Bool := do
  match ← readDocument path with
  | none => return false
  | some _ => do
      atomicWrite path (← Attempt.ofExcept content)
      return true

/-- The documents that are wanted.  A collection that is moved away or replaced meanwhile has
none. -/
def scan (store : FileStore) (collection : String) (wanted : Json → Bool) :
    Action (List Json) := do
  let directory := store.documentsPath collection
  match ← directoryIdentity directory with
  | none => return []
  | some before => do
      let documents ← readDocuments directory (← listFiles directory storedEnding)
      if (← directoryIdentity directory) = some before then return documents.filter wanted
      else return []

/-- Remove the document of a file if it is wanted, and tell which it was. -/
def deleteFile (path : Path) (wanted : Json → Bool) : Action (Option Json) := do
  match ← readDocumentFile path with
  | none => return none
  | some document =>
      if wanted document then
        if ← removeDocument path then return some document else return none
      else return none

/-- Remove the wanted documents of some files, until a limit is reached; `removed` counts those
removed before. -/
def deleteFiles (directory : Path) (wanted : Json → Bool) (limit : Storage.Limit) :
    Nat → List String → Action (List Json)
  | _, [] => return []
  | removed, name :: rest => do
      if ← Attempt.ofExcept (limit.reached removed) then return []
      match ← deleteFile (directory.child name) wanted with
      | some document => do
          let others ← deleteFiles directory wanted limit (removed + 1) rest
          return document :: others
      | none => deleteFiles directory wanted limit removed rest

/-- Remove the wanted documents, up to a number of them. -/
def deleteMatching (store : FileStore) (collection : String) (wanted : Json → Bool)
    (limit : Storage.Limit) : Action (List Json) := do
  let directory := store.documentsPath collection
  deleteFiles directory wanted limit 0 (← listFiles directory storedEnding)

/-- All constraints of a collection. -/
def checks (store : FileStore) (collection : String) : Action (List (StoredCheck .json)) := do
  let directory := store.checksPath collection
  let found ← Attempt.forEach (← listFiles directory storedEnding) fun name =>
    readCheckFile (directory.child name)
  return found.filterMap id

/-- Carry out an operation on JSON documents. -/
def perform (store : FileStore) : (op : Storage.Op .json) → Action op.Result
  | .exists collection => store.exists? collection
  | .create collection => store.create collection
  | .drop collection => store.drop collection
  | .collections => store.collections
  | .put collection id document =>
      store.putText collection (.ofString id) (store.documentPath collection id)
        (.ok (store.documentText document))
  | .get collection id => getFrom (store.documentPath collection id) id
  | .replace collection id document =>
      replaceText (store.documentPath collection id) (.ok (store.documentText document))
  | .scan collection query => store.scan collection fun document => Json.contains document query
  | .deleteMatching collection query limit =>
      store.deleteMatching collection (fun document => Json.contains document query) limit
  | .deleteById collection id => removeDocument (store.documentPath collection id)
  | .addCheck collection name check =>
      store.createFile collection (store.checkPath collection name)
        (.ok (store.checkText ⟨name, check⟩))
  | .dropCheck collection name => removeDocument (store.checkPath collection name)
  | .checks collection => store.checks collection
  | .close => return ()

end FileStore

end DocStore
