import DocStore.Database.Documents
/-!
# Cursors

A cursor stands for the documents that contain a query.  It asks nothing before an iteration calls
for its first document; then it takes all of them at once, so that later writes do not change what
the iteration gives.  Every iteration of a cursor starts anew.
-/

set_option autoImplicit false

namespace DocStore.Database

/-- The documents of a collection that contain a query. -/
structure Cursor where
  /-- The collection. -/
  collection : String
  /-- The query. -/
  query : Json
deriving DecidableEq

namespace Cursor

/-- The cursor for a query; without one, for all documents. -/
def find (collection : String) (query : Caller.Value) : Except Failure Cursor := do
  let query := match query with
    | .absent => .object false []
    | query => query
  return ⟨collection, ← checkedQuery query⟩

/-- All documents, as they stand now. -/
def toList (cursor : Cursor) : Action (List Json) :=
  Documents.scan cursor.collection cursor.query

/-- The first document, as they stand now. -/
def first (cursor : Cursor) : Action (Option Json) := do
  let documents ← cursor.toList
  return documents.head?

/-- The number of documents, as they stand now. -/
def count (cursor : Cursor) : Action Nat := do
  let documents ← cursor.toList
  return documents.length

end Cursor

/-- How far an iteration of a cursor has come. -/
inductive Iteration where
  /-- Nothing has been asked yet. -/
  | fresh (cursor : Cursor)
  /-- These documents are still to be given. -/
  | running (rest : List Json)
  /-- Nothing more is given. -/
  | finished
deriving DecidableEq

namespace Iteration

/-- Give the next of some documents. -/
def give : List Json → Option Json × Iteration
  | [] => (none, finished)
  | document :: rest => (some document, running rest)

/-- The next document, if there is one, and the iteration after it.  An iteration that fails is
finished. -/
def next : Iteration → Action (Except Failure (Option Json) × Iteration)
  | fresh cursor => do
      match ← cursor.toList.outcome with
      | .ok documents =>
          let (document, rest) := give documents
          return (.ok document, rest)
      | .error failure => return (.error failure, finished)
  | running rest =>
      let (document, rest) := give rest
      return (.ok document, rest)
  | finished => return (.ok none, finished)

/-- What can be asked of an iteration. -/
inductive Call where
  /-- The next document. -/
  | next
  /-- Give nothing more. -/
  | stop
deriving DecidableEq

/-- Do what is asked of an iteration, one after the other, and tell what comes of each call. -/
def serve : List Call → Iteration → Action (List (Except Failure (Option Json)) × Iteration)
  | [], iteration => return ([], iteration)
  | .next :: calls, iteration => do
      let (answer, iteration) ← iteration.next
      let (answers, iteration) ← serve calls iteration
      return (answer :: answers, iteration)
  | .stop :: calls, _ => do
      let (answers, iteration) ← serve calls finished
      return (.ok none :: answers, iteration)

end Iteration

end DocStore.Database
