import DocStore.Database.Operation
import DocStore.Files.Values
import DocStore.Storage.Memory
/-!
# An open database

A session is a database that is open over a storage in memory or in files.  It turns every request
of the database into a program over a host: operations go to the storage, events to the logger, and
the lock of a collection is a turn in its section and, over files, the lock file as well.
-/

set_option autoImplicit false

namespace DocStore.Database

open Host (Section)

/-- Where the documents of a database are kept. -/
inductive Backend where
  | memory
  | files (store : FileStore)

/-- An open database. -/
structure Session where
  /-- The number of the database among those that are open. -/
  number : Nat
  /-- Where the documents are kept. -/
  backend : Backend
  /-- Who is told about what is going on. -/
  logger : Log.Logger
  /-- Whether the database has been closed. -/
  closed : Bool

namespace Session

/-- The logger of a database: a given one or else a shared one, with a given level if there is
one. -/
def loggerFor (shared : Log.Logger) (given : Option Log.Logger) (level : Option Log.Level) :
    Log.Logger :=
  let logger := given.getD shared
  match level with
  | some level => logger.withLevel level
  | none => logger

/-- Open a database. -/
def start (number : Nat) (backend : Backend) (logger : Log.Logger) : Session :=
  ⟨number, backend, logger, false⟩

variable {content : Content}

/-- The section of a collection. -/
def sectionOf (session : Session) (collection : content.Key) : Section :=
  ⟨session.number, content.identity collection⟩

/-- Ask a host a request. -/
def ask (request : Host.Request) : Program Host.interface request.Answer :=
  Program.request (I := Host.interface) request

/-- Take the lock file of a collection, where there is one. -/
def takeFile (collection : content.Key) :
    Backend → Program Host.interface (Except Failure (Hold content))
  | .memory => .done (.ok ⟨collection, none⟩)
  | .files store =>
      match content.shown collection with
      | .error failure => .done (.error failure)
      | .ok shown =>
          (store.lockOf shown.text).acquire.toProgram.bind fun taken =>
            .done (taken.map fun handle => ⟨collection, some handle⟩)

/-- Give a lock file back, where there is one. -/
def giveFile (hold : Hold content) : Backend → Program Host.interface (Except Failure Unit)
  | .memory => .done (.ok ())
  | .files store =>
      match hold.handle, content.shown hold.collection with
      | some handle, .ok shown => ((store.lockOf shown.text).release handle).toProgram
      | _, _ => .done (.ok ())

/-- Take the lock of a collection.  The section is left at once when the lock file is not obtained.
-/
def lock (session : Session) (collection : content.Key) :
    Program Host.interface (Except Failure (Hold content)) :=
  (ask (.enter (session.sectionOf collection))).bind fun _ =>
    (takeFile collection session.backend).bind fun taken =>
      match taken with
      | .ok hold => .done (.ok hold)
      | .error failure =>
          (ask (.leave (session.sectionOf collection))).bind fun _ => .done (.error failure)

/-- Give the lock of a collection back.  Others go on before the next one is let in. -/
def unlock (session : Session) (hold : Hold content) :
    Program Host.interface (Except Failure Unit) :=
  (giveFile hold session.backend).bind fun given =>
    (ask .giveWay).bind fun _ => (ask .giveWay).bind fun _ =>
      (ask (.leave (session.sectionOf hold.collection))).bind fun _ => .done given

/-- An operation of the storage of the database of a number. -/
def store (number : Nat) (op : Storage.Op content) : Backend → Program Host.interface op.Answer
  | .memory => ask (.memory number op)
  | .files store =>
      match content, op with
      | .json, op => (store.perform op).toProgram
      | .any, op => (store.performAny op).toProgram

/-- Tell the logger, if it lets the notice pass. -/
def tell (session : Session) (notice : Notice content) : Host.Action Unit := do
  if session.logger.passes notice.level then
    let subject ← Attempt.ofExcept (content.subject notice.collection (notice.field.getD ""))
    Host.log session.logger
      ⟨notice.level, notice.event, ⟨subject, notice.message, notice.details⟩⟩

/-- What a request of the database does. -/
def meaning (session : Session) :
    (request : Request content) → Program Host.interface request.Answer
  | .store op => store session.number op session.backend
  | .lock collection => session.lock collection
  | .unlock hold => session.unlock hold
  | .tell notice => (session.tell notice).toProgram
  | .generate => ask .generate
  | .giveWay => ask .giveWay

/-- A step of the database, as a program over a host. -/
def run {α : Type} (session : Session) (action : ActionOn content α) : Host.Action α :=
  action.interpret session.meaning

/-- Do an operation. -/
def perform (session : Session) (operation : Operation) : Host.Action operation.Result :=
  session.run (Database.perform operation)

/-- Do something while holding the lock of a collection. -/
def holding {α : Type} (session : Session) (collection : content.Key) (body : Host.Action α) :
    Host.Action α := do
  let hold ← Attempt.ofProgram (session.lock collection)
  body.andFinally (Attempt.ofProgram (session.unlock hold))

/-- Close the database; the storage releases what it holds the first time only. -/
def close (session : Session) : Host.Action Session := do
  if session.closed then return session
  session.run (Database.store .close)
  return { session with closed := true }

end Session

end DocStore.Database
