import DocStore.Database.Constraints
/-!
# Writing and reading documents

A document is written while the lock of its collection is held, for the whole sequence of reading,
checking and writing.  A document without an identifier gets one from the generator, as its first
field.  Reading takes no lock and never creates a collection.
-/

set_option autoImplicit false

namespace DocStore.Database

/-- The field that holds the identifier of a document. -/
def idField : String := "_id"

/-- The body of a document: an object in normal form, whose identifier, if it has one, is a text. -/
def body (document : Caller.Value) : Except Failure (List (String × Json)) := do
  let normal ← (Caller.normalObject "Document" document).mapError fun misfit =>
    .ofInput (.misfit misfit)
  match normal with
  | .object fields =>
      match fields.lookup idField with
      | none => return fields
      | some id =>
          let _ ← Identifier.ofValue (Caller.ofJson id)
          return fields
  | _ => return []

/-- The identifier that a body gives. -/
def givenId? (fields : List (String × Json)) : Option String :=
  (fields.lookup idField).bind Json.string?

/-- The fields of a document with a new identifier, which is listed first. -/
def withId (id : String) (fields : List (String × Json)) : List (String × Json) :=
  Fields.inKeyOrder ((idField, Json.string id) :: fields)

/-- The query that a caller gives. -/
def checkedQuery (query : Caller.Value) : Except Failure Json :=
  (Caller.normalQuery query).mapError fun misfit => .ofInput (.misfit misfit)

namespace Documents

/-- Keep a new document under its identifier, or under a new one, and tell which. -/
def insertLocked (collection : String) (fields : List (String × Json)) : Action String := do
  let (id, document) ← match givenId? fields with
    | some id => pure (id, Tree.object fields)
    | none => do
        let id ← generate
        pure (id, Tree.object (withId id fields))
  waitFor (Constraints.enforce collection document)
  store (.put collection id document)
  logDocuments "document.insert" collection id
  return id

/-- Keep a new document, and tell its identifier. -/
def insert (collection : String) (document : Caller.Value) : Action String := do
  let fields ← Attempt.ofExcept (body document)
  holding collection do
    let _ ← waitFor (Registry.create collection)
    waitFor (insertLocked collection fields)

/-- Replace the document of the same identifier, or keep a new one, and tell the identifier. -/
def save (collection : String) (document : Caller.Value) : Action String := do
  let fields ← Attempt.ofExcept (body document)
  holding collection do
    let _ ← waitFor (Registry.create collection)
    match givenId? fields with
    | none => waitFor (insertLocked collection fields)
    | some id =>
        match ← store (.get collection id) with
        | none => waitFor (insertLocked collection fields)
        | some _ => do
            waitFor (Constraints.enforce collection (Tree.object fields))
            let _ ← store (.replace collection id (.object fields))
            logDocuments "document.replace" collection id
            return id

/-- The documents that contain a query; none of a collection that does not exist. -/
def scan (collection : String) (query : Json) : Action (List Json) := do
  if ← store (.exists collection) then store (.scan collection query)
  else return []

/-- The document of an identifier. -/
def findById (collection : String) (id : String) : Action (Option Json) := do
  if ← store (.exists collection) then store (.get collection id)
  else return none

/-- Remove the documents that contain a query, up to a number of them, and tell how many. -/
def remove (collection : String) (query : Json) (limit : Storage.Limit) :
    Action Nat :=
  holding collection do
    if ← store (.exists collection) then
      let removed ← store (.deleteMatching collection query limit)
      if removed ≠ [] then
        logDocuments "document.remove" collection (toString removed.length ++ " document(s)")
      return removed.length
    else return 0

/-- Remove the document of an identifier, and tell how many were removed. -/
def removeById (collection : String) (id : String) : Action Nat :=
  holding collection do
    if ← store (.exists collection) then
      let removed ← store (.deleteById collection id)
      if removed then logDocuments "document.remove" collection id
      return if removed then 1 else 0
    else return 0

end Documents

end DocStore.Database
