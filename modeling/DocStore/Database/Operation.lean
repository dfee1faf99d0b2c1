import DocStore.Database.Cursor
/-!
# The operations of the database

`Operation` lists what callers can do with a database and `perform` does it.  An operation on a
collection first checks the name of the collection, then its other arguments, and only then asks for
anything; an operation that fails there has asked for nothing.
-/

set_option autoImplicit false

namespace DocStore.Database

/-- What a caller can do, with the values that the caller passes. -/
inductive Operation where
  | listCollections
  | collectionExists (collection : Caller.Value)
  | createCollection (collection : Caller.Value)
  | dropCollection (collection : Caller.Value)
  | insert (collection document : Caller.Value)
  | save (collection document : Caller.Value)
  | find (collection query : Caller.Value)
  | findOne (collection query : Caller.Value)
  | findOneById (collection id : Caller.Value)
  | count (collection query : Caller.Value)
  | remove (collection query : Caller.Value)
  | removeOne (collection query : Caller.Value)
  | removeOneById (collection id : Caller.Value)
  | addConstraint (collection spec : Caller.Value)
  | removeConstraint (collection spec : Caller.Value)
  | listConstraints (collection : Caller.Value)

/-- What an operation tells when it succeeds. -/
abbrev Operation.Result : Operation → Type
  | listCollections => List String
  | collectionExists _ | createCollection _ | dropCollection _ | addConstraint _ _
  | removeConstraint _ _ => Bool
  | insert _ _ | save _ _ => String
  | find _ _ => List Json
  | findOne _ _ | findOneById _ _ => Option Json
  | count _ _ | remove _ _ | removeOne _ _ | removeOneById _ _ => Nat
  | listConstraints _ => List Constraint

/-- The name of a collection, for an operation that starts with it. -/
def named {α : Type} (collection : Caller.Value) (body : String → Action α) : Action α := do
  let name ← Attempt.ofExcept (checkedName collection)
  body name

/-- The cursor of a query. -/
def cursor (collection query : Caller.Value) : Action Cursor :=
  named collection fun name => Attempt.ofExcept (Cursor.find name query)

/-- Remove the documents that contain a query, up to a number of them. -/
def removeMatching (collection query : Caller.Value) (limit : Storage.Limit) :
    Action Nat :=
  named collection fun name => do
    let query ← Attempt.ofExcept (checkedQuery query)
    Documents.remove name query limit

/-- Do an operation. -/
def perform : (operation : Operation) → Action operation.Result
  | .listCollections => Registry.names
  | .collectionExists collection => named collection (@Registry.exists? .json)
  | .createCollection collection =>
      named collection fun name => holding name (Registry.create name)
  | .dropCollection collection =>
      named collection fun name => holding name (Registry.drop name)
  | .insert collection document => named collection fun name => Documents.insert name document
  | .save collection document => named collection fun name => Documents.save name document
  | .find collection query => do (← cursor collection query).toList
  | .findOne collection query => do (← cursor collection query).first
  | .count collection query => do (← cursor collection query).count
  | .findOneById collection id =>
      named collection fun name => do
        let id ← Attempt.ofExcept (Identifier.ofValue id)
        Documents.findById name id
  | .remove collection query => removeMatching collection query .none
  | .removeOne collection query => removeMatching collection query (.upTo 1)
  | .removeOneById collection id =>
      named collection fun name => do
        let id ← Attempt.ofExcept (Identifier.ofValue id)
        Documents.removeById name id
  | .addConstraint collection spec =>
      named collection fun name => holding name (Constraints.add name spec)
  | .removeConstraint collection spec =>
      named collection fun name => holding name (Constraints.remove name spec)
  | .listConstraints collection => named collection (@Constraints.active .json)

end DocStore.Database
