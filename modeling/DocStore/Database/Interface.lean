import DocStore.Attempt
import DocStore.Identifier
import DocStore.Log
import DocStore.Storage.Op
/-!
# What the database relies on

The database asks a storage for its operations, takes and gives back the lock of a collection, tells
what has happened and has identifiers generated.  Everything else it does by itself, so that it
behaves alike over every storage.  `Database.holding` does something while it holds the lock of a
collection.  What concerns collections and constraints alone works with any content of a storage;
documents are JSON.

Several operations may be under way at once.  The end of a procedure that another one waits for is a
moment at which others go on; `Database.waitFor` says so.
-/

set_option autoImplicit false

namespace DocStore.Database

/-- What a holder of a lock keeps to give it back. -/
structure Hold (content : Content) where
  /-- The collection that is locked. -/
  collection : content.Key
  /-- The handle of the open lock file, where there is one. -/
  handle : Option Nat

/-- What is told about something that has happened to a collection. -/
structure Notice (content : Content) where
  /-- The level at which it is told. -/
  level : Log.Level
  /-- What has happened. -/
  event : String
  /-- The collection. -/
  collection : content.Key
  /-- The field that it is about. -/
  field : Option String
  /-- A message. -/
  message : Option String
  /-- Details, as JSON text. -/
  details : Option String

/-- What the database asks. -/
inductive Request (content : Content) where
  /-- An operation of the storage. -/
  | store (op : Storage.Op content)
  /-- Take the lock of a collection. -/
  | lock (collection : content.Key)
  /-- Give a lock back. -/
  | unlock (hold : Hold content)
  /-- Tell that something has happened. -/
  | tell (notice : Notice content)
  /-- Call the identifier generator. -/
  | generate
  /-- Let other operations go on. -/
  | giveWay

/-- What the requests of the database answer. -/
abbrev Request.Answer {content : Content} : Request content → Type
  | store op => op.Answer
  | lock _ => Except Failure (Hold content)
  | unlock _ | tell _ => Except Failure Unit
  | giveWay => Unit
  | generate => Identifier.Generated

/-- The interface of the database over a storage of some content. -/
abbrev interface (content : Content) : Interface := ⟨Request content, Request.Answer⟩

/-- A step of the database over a storage of some content. -/
abbrev ActionOn (content : Content) (α : Type) : Type := Attempt (interface content) α

/-- A step of the database. -/
abbrev Action (α : Type) : Type := ActionOn .json α

variable {content : Content}

/-- Ask a storage for an operation. -/
def storeOn (op : Storage.Op content) : ActionOn content op.Result :=
  Attempt.ofProgram (I := interface content) (Program.request (I := interface content) (.store op))

/-- Tell that something has happened to a collection. -/
def tell (notice : Notice content) : ActionOn content Unit :=
  Attempt.ofProgram (I := interface content)
    (Program.request (I := interface content) (.tell notice))

/-- Let other operations go on. -/
def giveWay : ActionOn content Unit :=
  Attempt.request (I := interface content) .giveWay

/-- Do something that the rest waits for. -/
def waitFor {α : Type} (body : ActionOn content α) : ActionOn content α :=
  body.andFinally giveWay

/-- A result that is known without asking; others go on before it is passed on. -/
def resultOf {α : Type} (result : Except Failure α) : ActionOn content α :=
  waitFor (Attempt.ofExcept result)

/-- Ask the storage for an operation on JSON documents. -/
def store (op : Storage.Op .json) : Action op.Result :=
  storeOn op

/-- Take the lock of a collection. -/
def lock (collection : String) : Action (Hold .json) :=
  Attempt.ofProgram (I := interface .json)
    (Program.request (I := interface .json) (.lock collection))

/-- Give a lock back. -/
def unlock (hold : Hold .json) : Action Unit :=
  Attempt.ofProgram (I := interface .json) (Program.request (I := interface .json) (.unlock hold))

/-- Tell that something has happened to the documents of a collection. -/
def logDocuments (event collection message : String) : Action Unit :=
  tell
    { level := .debug, event, collection, field := none, message := some message, details := none }

/-- A new identifier. -/
def generate : Action String := do
  match Identifier.check (← Attempt.request (I := interface .json) .generate) with
  | .ok id => return id
  | .error failure => resultOf (.error failure)

/-- Do something while holding the lock of a collection. -/
def holding {α : Type} (collection : String) (body : Action α) : Action α := do
  let hold ← lock collection
  body.andFinally (unlock hold)

end DocStore.Database
