import DocStore.Files.Store
/-!
# Values of callers in files

A storage in files may be used without the database, with any values of callers.  The names of
collections have to be texts, since they become names of directories.  Identifiers and the names of
constraints become names of files; instead of a text a list may give the bytes of such a name, but
not of one that is told by its digest.
A document is kept as its canonical text, so what is read is JSON again; a value without a place in
JSON leaves a file that nothing can be read from.
-/

set_option autoImplicit false

namespace DocStore.FileStore

open Caller (Value)
open Disk (Path)
open Host (Action)
open Files

/-- What becomes of a key that cannot name a file. -/
def unnameable : Failure :=
  .system ⟨.wrongType, "open", none⟩

/-- The name of a collection, which has to be a text. -/
def collectionOf (key : Caller.Key) : Except Failure String :=
  match key.value.string? with
  | some name => .ok name
  | none => .error unnameable

/-- The byte that a value counts as. -/
def byteOf? (value : Value) : Option Nat :=
  value.number?.map fun number => (number.whole?.getD 0 % 256).toNat

/-- The name of the file of a key. -/
def fileName (key : Value) : Except Failure String :=
  let name : Option String := match key with
    | .scalar (.string text) => some (keyName text)
    | .array items => (items.mapM byteOf?).bind bytesName?
    | _ => none
  match name with
  | some name => .ok name
  | none => .error unnameable

/-- Do something with a collection. -/
def within {α : Type} (collection : Caller.Key) (body : String → Action α) : Action α := do
  body (← Attempt.ofExcept (collectionOf collection))

/-- Do something with a collection and the file of a key in one of its directories. -/
def withFile {α : Type} (directory : String → Path) (collection key : Caller.Key)
    (body : String → Path → Action α) : Action α :=
  within collection fun collection => do
    let name ← Attempt.ofExcept (fileName key.value)
    body collection ((directory collection).child name)

/-- The canonical text of a value under a key order. -/
def valueText (store : FileStore) (order : Json.KeyOrder) (value : Value) : Except Failure String :=
  (Caller.canonicalText store.layout order value).mapError Failure.ofRefusal

/-- Whether a document contains a query of a caller.  A document ends, so the search does. -/
def wanted (query : Value) (document : Json) : Bool :=
  (Caller.contains? (Caller.ofJson document) query).getD false

/-- Carry out an operation on values of callers. -/
def performAny (store : FileStore) : (op : Storage.Op .any) → Action op.Result
  | .exists collection => within collection store.exists?
  | .create collection => within collection store.create
  | .drop collection => within collection store.drop
  | .collections => do return (← store.collections).map Caller.Key.ofText
  | .put collection id document =>
      withFile store.documentsPath collection id fun collection path => do
        let shown ← Attempt.ofExcept (Content.any.shown id)
        store.putText collection shown path (store.valueText .document document)
  | .get collection id =>
      withFile store.documentsPath collection id fun _ path => do
        let document ← readDocumentFile path
        let found := document.filter fun value => documentId? value == id.value.string?
        return found.map Caller.ofJson
  | .replace collection id document =>
      withFile store.documentsPath collection id fun _ path =>
        replaceText path (store.valueText .document document)
  | .scan collection query =>
      within collection fun collection => do
        return (← store.scan collection (wanted query)).map Caller.ofJson
  | .deleteMatching collection query limit =>
      within collection fun collection => do
        let removed ← store.deleteMatching collection (wanted query) limit
        return removed.map Caller.ofJson
  | .deleteById collection id =>
      withFile store.documentsPath collection id fun _ path => removeDocument path
  | .addCheck collection name check =>
      withFile store.checksPath collection name fun collection path =>
        store.createFile collection path
          (store.valueText .alphabetical
            (.object false [("name", name.value), ("constraint", check)]))
  | .dropCheck collection name =>
      withFile store.checksPath collection name fun _ path => removeDocument path
  | .checks collection =>
      within collection fun collection => do
        let checks ← store.checks collection
        return checks.map fun stored =>
          ⟨.ofText stored.name, Caller.ofJson (Constraint.toJson stored.check)⟩
  | .close => return ()

end DocStore.FileStore
