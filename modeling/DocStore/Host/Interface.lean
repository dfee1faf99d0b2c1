import DocStore.Attempt
import DocStore.Calendar
import DocStore.Disk.Call
import DocStore.Identifier
import DocStore.Log.Entry
import DocStore.Storage.Op
/-!
# What programs ask of their surroundings

A host carries out calls on a disk and operations of storages in memory, keeps time, makes names
that nobody has used, prints, gives the input of the process, calls the identifier generator and
lets one program at a time into a section.  `Host.log` prints the line of an event that a logger
lets pass.
-/

set_option autoImplicit false

namespace DocStore.Host

/-- Where a text is printed. -/
inductive Stream where
  | output
  | errors
deriving DecidableEq

/-- A section that one program at a time may be in. -/
structure Section where
  /-- The number of the database that the section belongs to. -/
  owner : Nat
  /-- What tells the section apart from the others. -/
  name : Caller.Identity
deriving DecidableEq

/-- Whether a text holds a line that ends, in any of the ways in which lines end. -/
def hasLine (text : String) : Bool :=
  text.toList.any fun character => character == '\n' || character == '\r'

/-- What a program asks. -/
inductive Request where
  /-- A call on the disk. -/
  | disk (call : Disk.Call)
  /-- An operation of the storage in memory that belongs to a database. -/
  | memory {content : Content} (owner : Nat) (op : Storage.Op content)
  /-- A name of thirty-six characters that nobody has used. -/
  | freshName
  /-- The time, in milliseconds since the start of the year 1970. -/
  | now
  /-- Wait for a number of milliseconds. -/
  | pause (milliseconds : Nat)
  /-- The number of the process. -/
  | processId
  /-- Call the identifier generator. -/
  | generate
  /-- Print a text. -/
  | print (stream : Stream) (text : String)
  /-- Read the input to its end, in the pieces in which it comes. -/
  | readInput
  /-- Read one line of the input, if there is one that ends. -/
  | readLine
  /-- Let everyone go on who can. -/
  | giveWay
  /-- Wait until everyone who came to a section before has left it. -/
  | enter (key : Section)
  /-- Leave a section. -/
  | leave (key : Section)

/-- What the requests answer. -/
abbrev Request.Answer : Request → Type
  | disk call => call.Answer
  | memory _ op => op.Answer
  | freshName => String
  | now => Int
  | processId => Nat
  | generate => Identifier.Generated
  | readInput => List String
  | readLine => Option String
  | pause _ | print _ _ | giveWay | enter _ | leave _ => Unit

/-- The interface of a host. -/
abbrev interface : Interface := ⟨Request, Request.Answer⟩

/-- A step of a program over a host. -/
abbrev Action (α : Type) : Type := Attempt interface α

/-- Ask a request that cannot fail. -/
def ask (request : Request) : Action request.Answer :=
  Attempt.request (I := interface) request

/-- Carry out a call on the disk; what a failure becomes is given. -/
def callAs (call : Disk.Call) (failure : Disk.Errno → Failure) : Action call.Result :=
  Attempt.ofProgram (I := interface)
    (.ask (.disk call) fun answer => .done (Except.mapError failure answer))

/-- Carry out a call on the disk and go on whatever it answers. -/
def tryCall (call : Disk.Call) : Action (Except Disk.Errno call.Result) :=
  Attempt.ofProgram (I := interface) (.ask (.disk call) fun answer => .done (.ok answer))

/-- Create a directory and all that are missing above it; what an obstacle becomes is given. -/
def makeDirectories (path : Disk.Path) (failure : Disk.Obstacle → Failure) : Action Unit := do
  match ← tryCall (.makeDirectories path) with
  | .ok none => return ()
  | .ok (some obstacle) => Attempt.fail (failure obstacle)
  | .error errno => Attempt.fail (failure ⟨path, errno⟩)

/-- Print a text. -/
def print (stream : Stream) (text : String) : Action Unit :=
  ask (.print stream text)

/-- Print a text and end the line. -/
def printLine (stream : Stream) (text : String) : Action Unit :=
  print stream (text ++ "\n")

/-- Print a line of a level: the urgent ones are errors, and of unusual levels nothing is printed.
-/
def printLog (level : Log.Level) (line : String) : Action Unit := do
  if level.isUsual then printLine (if level.isUrgent then .errors else .output) line

/-- Print the line of an event that a logger lets pass. -/
def log (logger : Log.Logger) (event : Log.Event) : Action Unit := do
  if logger.passes event.level then
    let time ← ask .now
    printLog event.level (event.line (Calendar.isoText time))

/-- Print the line of an event that a caller describes, if a logger lets it pass. -/
def logValue (logger : Log.Logger) (level event data : Caller.Value) : Action Unit := do
  let named := Log.Level.named (level.string?.getD "")
  if logger.passes named then
    let time ← ask .now
    match Log.Entry.line? (.ofEvent (Calendar.isoText time) level event data) with
    | some line => printLog named line
    | none => Attempt.fail .illTyped

end DocStore.Host
