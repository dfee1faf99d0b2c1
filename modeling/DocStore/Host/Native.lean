import DocStore.Host.Interface
import DocStore.Storage.Memory
import Std.Time.DateTime.Timestamp
/-!
# The host of a running process

The requests of a program are answered by the operating system: files are files, time is the time of
the system, and texts are printed on the streams of the process.  Nothing is decided here.  A
process runs one program, so it has every section for itself; a file that is written is brought to
the device as far as its handle allows, and directories are told apart by nothing but their paths.
-/

set_option autoImplicit false

namespace DocStore.Host

open Disk (Errno Path)

/-- What a process keeps between requests. -/
structure Native where
  /-- The open files, each under its number. -/
  handles : IO.Ref (List (Nat × IO.FS.Handle))
  /-- The number of the next file that is opened. -/
  next : IO.Ref Nat
  /-- The storages in memory. -/
  memories : IO.Ref Memories

namespace Native

/-- A process that has asked nothing. -/
def start : IO Native := do
  return ⟨← IO.mkRef [], ← IO.mkRef 1, ← IO.mkRef Memories.empty⟩

/-! ## Errors -/

/-- The error numbers as the operating system writes them. -/
def errnoNumbers : List (UInt32 × Errno) :=
  [(1, .notPermitted), (2, .noEntry), (5, .device), (9, .badHandle), (13, .access), (16, .busy),
   (17, .exists), (18, .crossDevice), (20, .notDirectory), (21, .isDirectory), (22, .invalid),
   (28, .noSpace), (30, .readOnly), (36, .nameTooLong), (38, .noCall), (39, .notEmpty), (40, .loop),
   (95, .notSupported)]

/-- The number of an error of the operating system. -/
def numberOf : IO.Error → UInt32
  | .alreadyExists _ number _ | .otherError number _ | .resourceBusy number _
  | .resourceVanished number _ | .unsupportedOperation number _ | .hardwareFault number _
  | .unsatisfiedConstraints number _ | .illegalOperation number _ | .protocolError number _
  | .timeExpired number _ | .interrupted _ number _ | .noFileOrDirectory _ number _
  | .invalidArgument _ number _ | .permissionDenied _ number _ | .resourceExhausted _ number _
  | .inappropriateType _ number _ | .noSuchThing _ number _ => number
  | .unexpectedEof | .userError _ => 5

/-- The error that the operating system reports.  Some calls report the number of the error and some
its negation. -/
def errnoOf (error : IO.Error) : Errno :=
  let number := numberOf error
  ((errnoNumbers.lookup number).or (errnoNumbers.lookup (0 - number))).getD .device

/-- The outcome of an action of the operating system. -/
def outcome {α : Type} (action : IO α) : IO (Except Errno α) := do
  try
    return .ok (← action)
  catch error => return .error (errnoOf error)

/-! ## Files -/

/-- The entry that a path names. -/
def entryOf (path : Path) : IO.FS.DirEntry :=
  ⟨path.parent.text, path.name⟩

/-- The kind of an entry. -/
def kindOf (entry : IO.FS.DirEntry) : IO Disk.EntryKind := do
  match (← entry.path.symlinkMetadata).type with
  | .dir => return .directory
  | .symlink => return .link
  | _ => return .file

/-- Open a file. -/
def openFile (process : Native) (path : Path) (mode : IO.FS.Mode) : IO Nat := do
  let handle ← IO.FS.Handle.mk path.text mode
  let number ← process.next.get
  process.next.set (number + 1)
  process.handles.modify fun handles => (number, handle) :: handles
  return number

/-- Do something with an open file. -/
def withHandle (process : Native) (number : Nat) (action : IO.FS.Handle → IO Unit) :
    IO (Except Errno Unit) := do
  match (← process.handles.get).lookup number with
  | some handle => outcome (action handle)
  | none => return .error .badHandle

/-- Remove the entry of a file or link. -/
def unlink (path : Path) : IO (Except Errno Unit) := do
  match ← outcome (kindOf (entryOf path)) with
  | .ok .directory => return .error .isDirectory
  | .ok _ => outcome (IO.FS.removeFile path.text)
  | .error errno => return .error errno

/-- Remove whatever is at or below a path, if anything. -/
def removeTree (path : Path) : IO (Except Errno Unit) := do
  match ← outcome (kindOf (entryOf path)) with
  | .ok .directory => outcome (IO.FS.removeDirAll path.text)
  | .ok _ => outcome (IO.FS.removeFile path.text)
  | .error .noEntry => return .ok ()
  | .error errno => return .error errno

/-- Carry out a call. -/
def call (process : Native) : (call : Disk.Call) → IO call.Answer
  | .status path => outcome do
      let status ← (entryOf path).path.metadata
      return ⟨status.type matches .dir, 0⟩
  | .read path => outcome (IO.FS.readFile path.text)
  | .list path => outcome do
      let entries ← (entryOf path).path.readDir
      entries.toList.mapM fun entry => do
        return (entry.fileName, ← kindOf entry)
  | .makeDirectories path => outcome do
      IO.FS.createDirAll path.text
      return none
  | .openNew path => outcome (process.openFile path .writeNew)
  | .openEmpty path => outcome (process.openFile path .write)
  | .write handle content => process.withHandle handle fun file => file.putStr content
  | .syncContent handle | .syncFile handle => process.withHandle handle fun file => file.flush
  | .close handle => do
      let closed ← process.withHandle handle fun file => file.flush
      process.handles.modify fun handles => handles.filter fun entry => entry.1 != handle
      return closed
  | .rename source target => outcome (IO.FS.rename source.text target.text)
  | .link source target => outcome (IO.FS.hardLink source.text target.text)
  | .unlink path => unlink path
  | .removeTree path => removeTree path
  | .syncDirectory _ => return .ok ()

/-! ## Requests -/

/-- Numbers between zero and 255 that nobody can foresee. -/
def randomBytes (count : Nat) : IO (List Nat) := do
  return (← IO.getRandomBytes (USize.ofNat count)).toList.map UInt8.toNat

/-- A name of thirty-six characters that nobody has used. -/
def freshName : IO String := do
  return Identifier.ofBytes (← randomBytes 18)

/-- The number of the process; zero where the system does not tell it. -/
def processId : IO Nat := do
  try
    return (((← IO.FS.readFile "/proc/self/stat").splitOn " ").head?.bind String.toNat?).getD 0
  catch _ => return 0

/-- The stream of the process that a text is printed on. -/
def streamOf : Stream → IO IO.FS.Stream
  | .output => IO.getStdout
  | .errors => IO.getStderr

/-- All that is left of the input. -/
partial def readAll (input : IO.FS.Stream) (bytes : ByteArray) : IO ByteArray := do
  let piece ← input.read 65536
  if piece.isEmpty then return bytes else readAll input (bytes ++ piece)

/-- Answer a request. -/
def answer (process : Native) : (request : Request) → IO request.Answer
  | .disk call => process.call call
  | .memory owner op => do
      let memories ← process.memories.get
      let (result, memory) := (memories _ owner).perform op
      process.memories.set (memories.put owner memory)
      return result
  | .freshName => freshName
  | .now => return (← Std.Time.Timestamp.now).toMillisecondsSinceUnixEpoch.val
  | .pause milliseconds => IO.sleep (UInt32.ofNat milliseconds)
  | .processId => processId
  | .generate => do
      return .value (.ofString (Identifier.ofBytes (← randomBytes Identifier.byteCount)))
  | .print stream text => do
      let stream ← streamOf stream
      stream.putStr text
      stream.flush
  | .readInput => do
      let bytes ← readAll (← IO.getStdin) .empty
      return [(String.fromUTF8? bytes).getD ""]
  | .readLine => do
      let line ← (← IO.getStdin).getLine
      return if hasLine line then some line else none
  | .giveWay | .enter _ | .leave _ => return ()

/-- Run a program to its end. -/
def run {α : Type} (process : Native) : Program interface α → IO α
  | .done result => return result
  | .ask request next => do
      let value ← process.answer request
      process.run (next value)

end Native

end DocStore.Host
