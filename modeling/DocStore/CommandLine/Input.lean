import DocStore.Caller.Numeric
import DocStore.CommandLine.Output
import DocStore.Json.Reader
/-!
# What commands read

A command takes its JSON input from a file, from an option or from its input; a source that is named
twice, missing or empty, or that does not hold JSON, is refused with its name.  Reading the input
stops as soon as it exceeds a number of bytes.  A command that destroys something asks first, unless
it is told not to, and can only ask on a terminal.
-/

set_option autoImplicit false

namespace DocStore.CommandLine

open Host (Action callAs ask)

/-- Why a text is not JSON; what exactly is wrong is not told. -/
def malformedMessage : String := "the text is not JSON"

/-- A text without a byte order mark at its start. -/
def withoutMark (text : String) : String :=
  match text.toList with
  | '\uFEFF' :: rest => String.ofList rest
  | _ => text

/-- Whether a text holds nothing but blanks. -/
def isEmptyText (text : String) : Bool :=
  Text.trim text == ""

/-- Refuse the JSON text of a source. -/
def refuseJson {α : Type} (source reason : String) : Except Failure α :=
  .error (.invalidArgument ("Invalid JSON in " ++ source ++ ": " ++ reason))

/-- The JSON value of a text that comes from a source. -/
def parseJson (source text : String) : Except Failure Json :=
  let text := withoutMark text
  if isEmptyText text then refuseJson source "input is empty"
  else
    match Json.parse? text with
    | some value => .ok value
    | none => refuseJson source malformedMessage

/-- How many bytes make a megabyte. -/
def megabyte : Nat := 1048576

/-- How many bytes are read from the input, where nothing else is said. -/
def defaultMaxBytes : Number := .ofNat (10 * megabyte)

/-- How many bytes are read, as a caller says it; a value that is no number sets no limit. -/
def maxBytesOf (value : Caller.Value) : Number :=
  if value.isAbsent then defaultMaxBytes else value.number?.getD .undefined

/-- A number of bytes in whole megabytes. -/
def megabytes (bytes : Number) : Number :=
  match bytes.floorDiv? megabyte with
  | some whole => .ofInt whole
  | none => bytes

/-- What a message says about an input of too many bytes. -/
def tooLargeMessage (maxBytes : Number) : String :=
  "stdin too large (max " ++ (megabytes maxBytes).text ++ "MB)"

/-- The pieces of an input put together, as long as they do not exceed a number of bytes; `size` and
`text` are what has been read before. -/
def collect (maxBytes : Number) : Nat → String → List String → Except Failure String
  | _, text, [] => .ok text
  | size, text, piece :: rest =>
      let size := size + piece.utf8ByteSize
      if maxBytes.ltNat size then .error (.stated (tooLargeMessage maxBytes))
      else collect maxBytes size (text ++ piece) rest

/-- The text of an input that comes in pieces; empty ones are not noticed. -/
def inputText (maxBytes : Number) (pieces : List String) : Except Failure String :=
  collect maxBytes 0 "" (pieces.filter (· != ""))

/-- Read the whole input. -/
def readInput (maxBytes : Number) : Action String := do
  let pieces ← ask .readInput
  Attempt.ofExcept (inputText maxBytes pieces)

/-- Where a command takes its JSON input from. -/
structure Source where
  /-- The name of a file. -/
  file : Option String
  /-- The JSON text itself. -/
  data : Option String
deriving DecidableEq

/-- The source that a caller's values name.  Two are refused whatever they are; else the name of a
file and a JSON text have to be texts. -/
def Source.ofValues (file data : Caller.Value) : Except Failure Source :=
  match file, data with
  | .absent, .absent => .ok ⟨none, none⟩
  | .scalar (.string file), .absent => .ok ⟨some file, none⟩
  | .absent, .scalar (.string data) => .ok ⟨none, some data⟩
  | .absent, _ => .error .illTyped
  | _, .absent => .error (.system ⟨.wrongType, "open", none⟩)
  | _, _ => .ok ⟨some "", some ""⟩

/-- A call that failed while a file was read; a directory can be opened but not read. -/
def readFailure (file : String) (errno : Disk.Errno) : Failure :=
  if errno = .isDirectory then .system ⟨errno, "read", none⟩
  else .system ⟨errno, "open", some file⟩

/-- The JSON value of a file. -/
def readFile (environment : Environment) (file : String) : Action Json := do
  let path := Disk.Path.ofText environment.workingDirectory file
  let text ← callAs (.read path) (readFailure file)
  Attempt.ofExcept (parseJson ("file " ++ file) text)

/-- The JSON value of the input. -/
def readInputJson (environment : Environment) : Action Json := do
  if environment.isTerminal then
    Attempt.fail
      (.invalidArgument "No input provided. Use --file, --data, or pipe JSON to stdin")
  match ← (readInput defaultMaxBytes).outcome with
  | .error failure => Attempt.fail (.invalidArgument failure.message)
  | .ok text =>
      if isEmptyText text then Attempt.fail (.invalidArgument "stdin is empty")
      else Attempt.ofExcept (parseJson "stdin" text)

/-- The JSON value of a source.  Without a named source it is the input, where that is allowed, and
else nothing. -/
def readSource (environment : Environment) (source : Source) (allowInput : Bool) :
    Action (Option Json) :=
  match source.file, source.data with
  | some _, some _ =>
      Attempt.fail
        (.invalidArgument "Cannot use both --file and --data; choose one or use stdin")
  | some file, none => some <$> readFile environment file
  | none, some data => Attempt.ofExcept (some <$> parseJson "--data" data)
  | none, none => if allowInput then some <$> readInputJson environment else return none

/-- The first line of an answer; the end of a line may be written in several ways. -/
def firstLine (answer : String) : String :=
  String.ofList (answer.toList.takeWhile fun character => character != '\n' && character != '\r')

/-- Whether an answer confirms; only its first line counts. -/
def confirms (answer : String) : Bool :=
  ((Text.trim (firstLine answer)).map Char.toLower) == "y"

/-- Ask before something is destroyed, unless that is not wanted.  An input that ends before its first
line does leaves the question open. -/
def confirm (environment : Environment) (force : Bool) (question : String) : Action Unit := do
  if force then return ()
  if !environment.isTerminal then
    Attempt.fail (.invalidArgument "Use --force to confirm in non-interactive mode")
  Host.print .errors (question ++ " (y/N) ")
  match ← ask .readLine with
  | none => Attempt.fail .unanswered
  | some answer =>
      if confirms answer then return ()
      else Attempt.fail (.command "Aborted by user" 1 none)

end DocStore.CommandLine
