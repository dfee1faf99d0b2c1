import DocStore.Digest.Sha256
import DocStore.Host.Interface
import DocStore.Storage.Memory
/-!
# A host that is a value

A machine answers every request from its own state: a disk, storages in memory, a clock that moves
only during pauses, a counter for fresh names, and what has been printed.  Running a program on a
machine is a function, so it can be repeated and reasoned about.  A machine has no sections of its
own; `DocStore.Host.Pool` keeps them for several programs at once.
-/

set_option autoImplicit false

namespace DocStore.Host

/-- A host that is a value. -/
structure Machine where
  /-- The disk. -/
  disk : Disk
  /-- The storages in memory. -/
  memories : Memories
  /-- The time, in milliseconds since the start of the year 1970. -/
  clock : Int
  /-- How many fresh names have been made. -/
  names : Nat
  /-- What each call of the identifier generator gives. -/
  generator : Nat → Identifier.Generated
  /-- How often the identifier generator has been called. -/
  calls : Nat
  /-- What has been printed, last first. -/
  printed : List (Stream × String)
  /-- The input that has not been read, in the pieces in which it comes. -/
  input : List String
  /-- The number of the process. -/
  processId : Nat

namespace Machine

/-- The identifier that a number stands for where identifiers are not chosen otherwise. -/
def numberedId (number : Nat) : Identifier.Generated :=
  .value (.ofString (Identifier.ofBytes (Digest.bigEndian Identifier.byteCount number)))

/-- A machine on which nothing has happened. -/
def start : Machine where
  disk := Disk.empty
  memories := Memories.empty
  clock := 0
  names := 0
  generator := numberedId
  calls := 0
  printed := []
  input := []
  processId := 1

/-- The machine with a directory, and all above it, on its disk. -/
def withDirectory (machine : Machine) (path : Disk.Path) : Machine :=
  { machine with disk := (machine.disk.makeDirectories path).2 }

/-- What has been printed on a stream. -/
def output (machine : Machine) (stream : Stream) : String :=
  String.join
    ((machine.printed.reverse.filter fun printed => printed.1 == stream).map Prod.snd)

/-- How many digits a fresh name has. -/
def freshNameLength : Nat := 36

/-- The fresh name of a number.  The names start over when all of their length have been given. -/
def freshName (number : Nat) : String :=
  Calendar.padded freshNameLength (number % Nat.pow 10 freshNameLength)

/-- The first line of some text, without its end, and what follows it. -/
def firstLine (text : List Char) : String × String :=
  (String.ofList (text.takeWhile (· != '\n')), String.ofList ((text.dropWhile (· != '\n')).drop 1))

/-- Answer a request. -/
def answer : (request : Request) → Machine → request.Answer × Machine
  | .disk call, machine =>
      let (result, disk) := machine.disk.answer call
      (result, { machine with disk })
  | .memory owner op, machine =>
      let (result, memory) := (machine.memories _ owner).perform op
      (result, { machine with memories := machine.memories.put owner memory })
  | .freshName, machine => (freshName machine.names, { machine with names := machine.names + 1 })
  | .now, machine => (machine.clock, machine)
  | .pause milliseconds, machine => ((), { machine with clock := machine.clock + milliseconds })
  | .processId, machine => (machine.processId, machine)
  | .generate, machine =>
      (machine.generator machine.calls, { machine with calls := machine.calls + 1 })
  | .print stream text, machine =>
      ((), { machine with printed := (stream, text) :: machine.printed })
  | .readInput, machine => (machine.input, { machine with input := [] })
  | .readLine, machine =>
      let text := String.join machine.input
      if hasLine text then
        let (line, rest) := firstLine text.toList
        (some line, { machine with input := [rest] })
      else (none, { machine with input := [] })
  | .giveWay, machine | .enter _, machine | .leave _, machine => ((), machine)

/-- Run a program alone on a machine. -/
def run {α : Type} (program : Program interface α) (machine : Machine) : α × Machine :=
  program.run answer machine

/-- Run an attempt alone on a machine. -/
def attempt {α : Type} (action : Action α) (machine : Machine) : Except Failure α × Machine :=
  machine.run action.toProgram

/-- Run a program until it waits for the disk or for time to pass, and give what is left of it. -/
def untilWaiting {α : Type} : Program interface α → Machine → Program interface α × Machine
  | .ask (.disk call) next, machine => (.ask (.disk call) next, machine)
  | .ask (.pause milliseconds) next, machine => (.ask (.pause milliseconds) next, machine)
  | .ask request next, machine =>
      let (value, machine) := answer request machine
      untilWaiting (next value) machine
  | .done result, machine => (.done result, machine)

end Machine

end DocStore.Host
