import DocStore.Storage.Op
/-!
# The storage in memory

The storage in memory is a value: the collections in the order in which they were created, each
with its documents in the order in which they were first put.  `Memory.perform` carries out an
operation.  Replacing a document keeps its place.
-/

set_option autoImplicit false

namespace DocStore

/-- A collection in memory. -/
structure MemoryCollection (content : Content) where
  /-- The documents, each under its identifier. -/
  documents : List (content.Key × content.Document)
  /-- The constraints, each under its name. -/
  checks : List (content.Key × content.Check)

/-- A storage in memory. -/
structure Memory (content : Content) where
  /-- The collections, each under its name. -/
  collections : List (content.Key × MemoryCollection content)

namespace Memory

variable {content : Content}

/-- The storage without collections. -/
def empty : Memory content := ⟨[]⟩

/-- The collection of a name. -/
def collection? (memory : Memory content) (name : content.Key) :
    Option (MemoryCollection content) :=
  content.find? name memory.collections

/-- The storage with a collection put under a name. -/
def putCollection (memory : Memory content) (name : content.Key)
    (collection : MemoryCollection content) : Memory content :=
  ⟨content.put name collection memory.collections⟩

/-- What comes of removing documents: those that are removed, or why the removal stops, and the
entries that stay. -/
abbrev Removal (content : Content) : Type :=
  Except Failure (List content.Document) × List (content.Key × content.Document)

/-- Remove documents that contain a query until a limit is reached; `removed` counts those removed
before.  A failure stops the removal where it is. -/
def splitMatching (query : content.Document) (limit : Storage.Limit) :
    Nat → List (content.Key × content.Document) → Removal content
  | _, [] => (.ok [], [])
  | removed, (id, document) :: rest =>
      match limit.reached removed, content.contains document query with
      | .error failure, _ => (.error failure, (id, document) :: rest)
      | .ok true, _ => (.ok [], (id, document) :: rest)
      | .ok false, .error failure => (.error failure, (id, document) :: rest)
      | .ok false, .ok true =>
          let (gone, kept) := splitMatching query limit (removed + 1) rest
          (gone.map (document :: ·), kept)
      | .ok false, .ok false =>
          let (gone, kept) := splitMatching query limit removed rest
          (gone, (id, document) :: kept)

/-- Carry out an operation. -/
def perform (memory : Memory content) : (op : Storage.Op content) → op.Answer × Memory content
  | .exists name => (.ok (memory.collection? name).isSome, memory)
  | .create name =>
      match memory.collection? name with
      | some _ => (.ok false, memory)
      | none => (.ok true, memory.putCollection name ⟨[], []⟩)
  | .drop name =>
      match memory.collection? name with
      | some _ => (.ok true, ⟨content.remove name memory.collections⟩)
      | none => (.ok false, memory)
  | .collections => (content.names (memory.collections.map Prod.fst), memory)
  | .put name id document =>
      match memory.collection? name with
      | none => (.error (Storage.missing name), memory)
      | some collection =>
          if (content.find? id collection.documents).isSome then
            (.error (Storage.taken name id), memory)
          else
            match content.kept document with
            | .error failure => (.error failure, memory)
            | .ok document =>
                (.ok (), memory.putCollection name
                  { collection with
                    documents := content.put id document collection.documents })
  | .get name id =>
      let document := (memory.collection? name).bind fun collection =>
        content.find? id collection.documents
      (.ok (document.filter content.isGiven), memory)
  | .replace name id document =>
      match memory.collection? name with
      | none => (.ok false, memory)
      | some collection =>
          if (content.find? id collection.documents).isSome then
            match content.kept document with
            | .error failure => (.error failure, memory)
            | .ok document =>
                (.ok true, memory.putCollection name
                  { collection with
                    documents := content.put id document collection.documents })
          else (.ok false, memory)
  | .scan name query =>
      match memory.collection? name with
      | none => (.ok [], memory)
      | some collection =>
          ((collection.documents.map Prod.snd).filterM fun document =>
            content.contains document query, memory)
  | .deleteMatching name query limit =>
      match memory.collection? name with
      | none => (.ok [], memory)
      | some collection =>
          let (gone, kept) := splitMatching query limit 0 collection.documents
          (gone, memory.putCollection name { collection with documents := kept })
  | .deleteById name id =>
      match memory.collection? name with
      | none => (.ok false, memory)
      | some collection =>
          (.ok (content.find? id collection.documents).isSome, memory.putCollection name
            { collection with documents := content.remove id collection.documents })
  | .addCheck name key check =>
      match memory.collection? name with
      | none => (.error (Storage.missing name), memory)
      | some collection =>
          if (content.find? key collection.checks).isSome then (.ok false, memory)
          else
            (.ok true, memory.putCollection name
              { collection with checks := content.put key check collection.checks })
  | .dropCheck name key =>
      match memory.collection? name with
      | none => (.ok false, memory)
      | some collection =>
          (.ok (content.find? key collection.checks).isSome, memory.putCollection name
            { collection with checks := content.remove key collection.checks })
  | .checks name =>
      match memory.collection? name with
      | none => (.ok [], memory)
      | some collection =>
          (.ok (collection.checks.map fun (key, check) => ⟨key, check⟩), memory)
  | .close => (.ok (), empty)

end Memory

/-- Storages in memory, each by its content and the number of the database that it belongs to. -/
abbrev Memories : Type := (content : Content) → Nat → Memory content

namespace Memories

/-- Empty storages. -/
def empty : Memories := fun _ _ => .empty

/-- The storages with one replaced. -/
def put {content : Content} (memories : Memories) (owner : Nat) (memory : Memory content) :
    Memories :=
  fun content' owner' =>
    if same : content = content' ∧ owner = owner' then same.1 ▸ memory else memories content' owner'

end Memories

end DocStore
