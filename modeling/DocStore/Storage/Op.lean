import DocStore.Storage.Content
/-!
# What a storage can do

A storage keeps collections of documents, each document under its identifier, and the constraints
of every collection, each under its name.  `Storage.Op` lists what can be asked of it.  Whoever
writes holds the lock of the collection meanwhile; the storage itself does not ask for it.
-/

set_option autoImplicit false

namespace DocStore

/-- A constraint as a storage keeps it. -/
structure StoredCheck (content : Content) where
  /-- The name under which the constraint is kept. -/
  name : content.Key
  /-- What is asked of documents. -/
  check : content.Check

namespace Storage

/-- How many documents may be removed. -/
inductive Limit where
  | none
  /-- Up to a number of documents. -/
  | upTo (count : Nat)
  /-- A limit that a count cannot be compared with. -/
  | incomparable
deriving DecidableEq

namespace Limit

/-- The limit that a caller's value sets. -/
def ofValue : Caller.Value → Limit
  | .absent => .none
  | value =>
      match value.number? with
      | Option.none => incomparable
      | some number =>
          if number.isNonpositive then upTo 0
          else
            match number.ceil? with
            | some count => upTo count
            | Option.none => none

/-- Whether a number of removals reaches a limit. -/
def reached (limit : Limit) (count : Nat) : Except Failure Bool :=
  match limit with
  | none => .ok false
  | upTo most => .ok (decide (most ≤ count))
  | incomparable => .error .illTyped

end Limit

/-- What can be asked of a storage. -/
inductive Op (content : Content) where
  /-- Whether a collection exists. -/
  | exists (collection : content.Key)
  /-- Create a collection, and tell whether it was not there. -/
  | create (collection : content.Key)
  /-- Remove a collection with all that it holds, and tell whether it was there. -/
  | drop (collection : content.Key)
  /-- The names of all collections, in the order of their units. -/
  | collections
  /-- Keep a new document. -/
  | put (collection id : content.Key) (document : content.Document)
  /-- The document of an identifier. -/
  | get (collection id : content.Key)
  /-- Replace the document of an identifier, and tell whether there was one. -/
  | replace (collection id : content.Key) (document : content.Document)
  /-- The documents that contain a query, in the order of the storage. -/
  | scan (collection : content.Key) (query : content.Document)
  /-- Remove the documents that contain a query, up to a number of them, and tell which. -/
  | deleteMatching (collection : content.Key) (query : content.Document) (limit : Limit)
  /-- Remove the document of an identifier, and tell whether there was one. -/
  | deleteById (collection id : content.Key)
  /-- Keep a constraint under a name, and tell whether the name was free. -/
  | addCheck (collection name : content.Key) (check : content.Check)
  /-- Remove the constraint of a name, and tell whether there was one. -/
  | dropCheck (collection name : content.Key)
  /-- All constraints of a collection. -/
  | checks (collection : content.Key)
  /-- Release what the storage holds. -/
  | close

/-- What an operation tells when it succeeds. -/
abbrev Op.Result {content : Content} : Op content → Type
  | .exists _ | .create _ | .drop _ | .replace _ _ _ | .deleteById _ _ | .addCheck _ _ _
  | .dropCheck _ _ => Bool
  | .collections => List content.Key
  | .put _ _ _ | .close => Unit
  | .get _ _ => Option content.Document
  | .scan _ _ | .deleteMatching _ _ _ => List content.Document
  | .checks _ => List (StoredCheck content)

/-- What an operation answers. -/
abbrev Op.Answer {content : Content} (op : Op content) : Type := Except Failure op.Result

/-- What a message says about a collection that is needed and does not exist. -/
def missingMessage (collection : String) : String :=
  "Collection \"" ++ collection ++ "\" does not exist"

/-- The failure of an operation on a collection that does not exist. -/
def missing {content : Content} (collection : content.Key) : Failure :=
  match content.shown collection with
  | .ok shown => .stated (missingMessage shown.text)
  | .error failure => failure

/-- The failure of keeping a new document under an identifier that is taken. -/
def taken {content : Content} (collection id : content.Key) : Failure :=
  match content.shown collection, content.shown id with
  | .ok collection, .ok id => .ofFault (.duplicateId collection id)
  | .error failure, _ | .ok _, .error failure => failure

end Storage

/-- A kept constraint as a JSON object. -/
def StoredCheck.toJson (stored : StoredCheck .json) : Json :=
  .object [("name", Json.string stored.name), ("constraint", Constraint.toJson stored.check)]

end DocStore
