import DocStore.Caller.Containment
import DocStore.Caller.Key
import DocStore.Caller.Numeric
import DocStore.Caller.Text
import DocStore.Constraint.Record
import DocStore.Error.Failure
import DocStore.Log.Entry
import DocStore.Query.Containment
/-!
# What storages keep

The database keeps JSON documents under texts, and constraints.  A caller who uses a storage without
the database may hand in any values instead: they are kept as they are, and what would be certain of
JSON is then a question of the value.  `Content` names the two, and this module says of both what a
storage has to know: when two keys are the same and which comes first, whether a document contains a
query, and how a document breaks what a collection asks.

A storage in memory keeps a copy of what it is given.  A copy holds what the value holds, with every
instance of a class as an object without fields.  Functions and marks cannot be copied; a value that
holds one is refused for the first of them, in the order of its parts.
-/

set_option autoImplicit false

/-! ## Copies of values -/

namespace DocStore.Caller

mutual
/-- The copy of a value, or its first part that cannot be copied. -/
def copy : Value → Except Value Value
  | .symbol description => .error (.symbol description)
  | .function => .error .function
  | .instanceOf _ => .ok (.object false [])
  | .array items => do return .array (← copyItems items)
  | .object _ fields => do return .object false (← copyFields fields)
  | value => .ok value

/-- The copies of items. -/
def copyItems : List Value → Except Value (List Value)
  | [] => .ok []
  | item :: rest => do return (← copy item) :: (← copyItems rest)

/-- The copies of fields. -/
def copyFields : List (String × Value) → Except Value (List (String × Value))
  | [] => .ok []
  | (key, value) :: rest => do return (key, ← copy value) :: (← copyFields rest)
end

end DocStore.Caller

namespace DocStore

open Caller (Shown Value View)

/-- What kind of things a storage keeps. -/
inductive Content where
  /-- JSON documents under texts, and constraints. -/
  | json
  /-- Whatever callers hand in. -/
  | any
deriving DecidableEq

namespace Content

/-- Names of collections and of constraints, and identifiers. -/
abbrev Key : Content → Type
  | json => String
  | any => Caller.Key

/-- Documents and queries. -/
abbrev Document : Content → Type
  | json => Json
  | any => Value

/-- Constraints, or what is put in their place. -/
abbrev Check : Content → Type
  | json => Constraint
  | any => Value

/-- The key that a text is. -/
def keyOf : (content : Content) → String → content.Key
  | json, text => text
  | any, text => Caller.Key.ofText text

/-- The check that a constraint is. -/
def checkOf : (content : Content) → Constraint → content.Check
  | json, constraint => constraint
  | any, constraint => Caller.ofJson constraint.toJson

/-- What tells a key apart. -/
def identity : (content : Content) → content.Key → Caller.Identity
  | json, key => .scalar (.string key)
  | any, key => key.identity

/-- Whether two keys are the same. -/
def same : (content : Content) → content.Key → content.Key → Bool
  | json, (key : String), (key' : String) => key == key'
  | any, key, key' => key.identity == key'.identity

/-- A key as errors show it. -/
def shown : (content : Content) → content.Key → Except Failure Shown
  | json, key => .ok (.ofString key)
  | any, key => Failure.ofText? (Shown.ofView? (.ofValue key.value))

/-- The text of what a log line is about: a collection and a field of its documents.  There is none
where both are nothing. -/
def subject : (content : Content) → content.Key → String → Except Failure (Option String)
  | json, (collection : String), field =>
      .ok (if collection = "" ∧ field = "" then none else some (Log.subjectText collection field))
  | any, collection, field =>
      Failure.ofText? (Log.Entry.subject?
        [("collection", .ofValue collection.value), ("field", .ofValue (.ofString field))])

/-- What a storage in memory keeps of a document. -/
def kept : (content : Content) → content.Document → Except Failure content.Document
  | json, document => .ok document
  | any, document =>
      (Caller.copy document).mapError fun part => .uncopied ((Caller.text? part).getD "")

/-- Whether a kept document is given to those who ask for it by its identifier.  JSON documents are
objects; of other values those that count as nothing are not. -/
def isGiven : (content : Content) → content.Document → Bool
  | json, _ => true
  | any, document => !document.isNothing

/-- Whether a document contains a query. -/
def contains : (content : Content) → content.Document → content.Document → Except Failure Bool
  | json, document, query => .ok (Json.contains document query)
  | any, document, query =>
      match Caller.contains? document query with
      | some found => .ok found
      | none => .error .endless

/-- How a document breaks a check, if it does. -/
def violation? :
    (content : Content) → content.Document → content.Check → Except Failure (Option Violation)
  | json, document, constraint => .ok (Constraint.violation? constraint document)
  | any, document, check => Failure.ofText? ((Record.ofValue check).violation? document)

/-- The name of a check; a record of an unknown kind has none. -/
def nameOf? : (content : Content) → content.Check → Option String
  | json, constraint => some (Constraint.name constraint)
  | any, check => (Record.ofValue check).name?.join

/-- The type that a check declares for a field, as errors show it, where it is another one than a
given type. -/
def otherType? (field : String) (type : JsonType) :
    (content : Content) → content.Check → Option (Except Failure Shown)
  | json, ⟨other, .hasType existing⟩ =>
      if other = field ∧ existing ≠ type then some (.ok (.ofString existing.name)) else none
  | json, _ => none
  | any, check =>
      let record := Record.ofValue check
      if record.declaresOther field type then
        some (Failure.ofText? (Shown.ofView? (record.part "type")))
      else none

/-- Entries in the order of their keys' units, as the names of collections are listed; a key without
a value comes last. -/
def listed {α : Type} (key : α → Value) (entries : List α) : Except Failure (List α) := do
  let named := entries.filter fun entry => !(key entry).isAbsent
  let unnamed := entries.filter fun entry => (key entry).isAbsent
  if named.length ≤ 1 then return named ++ unnamed
  let texts ← named.mapM fun entry => do
    return (← Failure.ofText? (View.ofValue (key entry)).shown?, entry)
  let sorted := Sorting.sort (fun first second => Text.before first.1 second.1) texts
  return sorted.map Prod.snd ++ unnamed

/-- Entries in the order of their keys, as the constraints of a collection are listed. -/
def ranked {α : Type} (key : α → Value) (entries : List α) : Except Failure (List α) := do
  if entries.length ≤ 1 then return entries
  let _ ← entries.mapM fun entry => Failure.ofText? (key entry).number?
  let before (first second : α) : Bool := ((key first).before? (key second)).getD false
  return Sorting.sort before entries

/-- The names of collections in their order. -/
def names : (content : Content) → List content.Key → Except Failure (List content.Key)
  | json, (names : List String) => .ok (Sorting.sort Text.before names)
  | any, names => listed Caller.Key.value names

/-- Entries in the order of their names. -/
def byName {α : Type} :
    (content : Content) → (α → content.Key) → List α → Except Failure (List α)
  | json, name, entries =>
      .ok (Sorting.sort (fun first second => Text.before (name first) (name second)) entries)
  | any, name, entries => ranked (fun entry => (name entry).value) entries

/-- The entry of a key. -/
def find? {α : Type} (content : Content) (key : content.Key) (entries : List (content.Key × α)) :
    Option α :=
  (entries.find? fun entry => content.same entry.1 key).map Prod.snd

/-- Entries with one put under a key; a new key goes to the end. -/
def put {α : Type} (content : Content) (key : content.Key) (value : α) :
    List (content.Key × α) → List (content.Key × α)
  | [] => [(key, value)]
  | (head, old) :: rest =>
      if content.same head key then (head, value) :: rest
      else (head, old) :: content.put key value rest

/-- Entries without the one of a key. -/
def remove {α : Type} (content : Content) (key : content.Key) (entries : List (content.Key × α)) :
    List (content.Key × α) :=
  entries.filter fun entry => !content.same entry.1 key

end Content

end DocStore
