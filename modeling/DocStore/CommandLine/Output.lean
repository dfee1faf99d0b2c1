import DocStore.Caller.Plain
import DocStore.CommandLine.Environment
import DocStore.Error.Failure
import DocStore.Host.Interface
import DocStore.Text.Blank
/-!
# What commands print

Values are printed as JSON, on one line each or indented; names are printed one to a line; outcomes
in words can be silenced.  A timing line names a command, what it was about, how long it took and
whether it succeeded; blanks inside its parts are replaced, so that a line can be taken apart again.

A command that fails prints one message.  A long message is cut; on demand the message is followed
by its cause and by where it arose.
-/

set_option autoImplicit false

namespace DocStore.CommandLine

open Host (Action print printLine ask)

/-- The layout in which values are printed. -/
def layoutOf (raw : Bool) : Json.Layout :=
  if raw then .line else .spaces 2

/-- Print a value. -/
def printJson (raw : Bool) (value : Json) : Action Unit :=
  printLine .output (Json.text (layoutOf raw) value)

/-- Print a value of a caller; one without a JSON form is shown by the word for no value. -/
def printValue (raw : Bool) (value : Caller.Value) : Action Unit :=
  match Caller.jsonText (layoutOf raw) value with
  | .ok text => printLine .output (text.getD (Caller.Value.kindName .absent))
  | .error _ => Attempt.fail .illTyped

/-- Print lines. -/
def printLines (lines : List String) : Action Unit := do
  let _ ← Attempt.forEach lines (printLine .output)

/-- Print an outcome in words, unless that is silenced. -/
def printStatus (quiet : Bool) (message : String) : Action Unit := do
  if !quiet then printLine .output message

/-- The colours of texts on a terminal. -/
inductive Colour where
  | red
  | green
  | yellow
deriving DecidableEq

/-- All colours. -/
def Colour.all : List Colour := [.red, .green, .yellow]

/-- The name of a colour. -/
def Colour.name : Colour → String
  | red => "red"
  | green => "green"
  | yellow => "yellow"

/-- The colour of a name. -/
def Colour.ofName? (name : String) : Option Colour :=
  all.find? fun colour => colour.name == name

/-- What a terminal takes for the start of a colour. -/
def Colour.opening : Colour → String
  | red => "\x1b[31m"
  | green => "\x1b[32m"
  | yellow => "\x1b[33m"

/-- What stands before a text in a colour of a name.  A name that is no colour stands for what every
object has under it, and else for the word for no value. -/
def colourOpening (name : String) : String :=
  (((Colour.ofName? name).map Colour.opening).or (Caller.inheritedText? name)).getD
    (Caller.Value.kindName .absent)

/-- A text in a colour of a name, where it is printed on a terminal. -/
def colorize (name : String) (isTerminal : Bool) (text : String) : String :=
  if isTerminal then colourOpening name ++ text ++ "\x1b[0m" else text

/-- A part of a timing line; a part without a value is left out.  A part may have no text form. -/
def metricPart? (part : String × Caller.View) : Option String :=
  match part.2.value with
  | .absent => some ""
  | _ =>
      part.2.text?.map fun text =>
        " " ++ Text.withoutBlanks part.1 ++ "=" ++ Text.withoutBlanks text

/-- A timing line about parts of a value, each under its key. -/
def metricLine? (command : String) (parts : List (String × Caller.View)) : Option String := do
  let texts ← parts.mapM metricPart?
  return "metric " ++ Text.withoutBlanks command ++ String.join texts ++ "\n"

/-- Print a timing line about the parts of a value, if such lines are printed. -/
def emitMetric (environment : Environment) (command : String)
    (parts : Option (List (String × Caller.View))) : Action Unit := do
  if isTimed environment then
    match parts.bind (metricLine? command) with
    | some line => print .errors line
    | none => Attempt.fail .illTyped

/-- What a timing line is about after a command has ended. -/
def timed (about : Caller.Value) (milliseconds : Nat) (success : Bool) :
    List (String × Caller.View) :=
  Fields.ofList ((Caller.View.ofValue about).entries?.getD [] ++
    [("duration_ms", .ofValue (.scalar (.number (.ofNat milliseconds)))),
      ("success", .ofValue (.scalar (.boolean success)))])

/-- Whether a result is a success. -/
def succeeded {α : Type} : Except Failure α → Bool
  | .ok _ => true
  | .error _ => false

/-- Whether the process ends with a question that is not answered. -/
def isLeftOpen {α : Type} : Except Failure α → Bool
  | .error .unanswered => true
  | _ => false

/-- Do something and print a timing line, whatever came of it, unless the process ends before. -/
def withTiming {α : Type} (environment : Environment) (command : String)
    (about : Caller.Value) (body : Action α) : Action α := do
  let start ← ask .now
  let result ← body.outcome
  if !isLeftOpen result then
    let milliseconds := ((← ask .now) - start).toNat
    emitMetric environment command (some (timed about milliseconds (succeeded result)))
  Attempt.ofExcept result

/-! ## How a failure is reported -/

/-- How many units of a message are printed. -/
def maxMessageLength : Nat := 2000

/-- A message, cut where it is too long. -/
def cutMessage (message : String) : String :=
  if maxMessageLength < Text.length message then
    Text.cut maxMessageLength message ++ "... (truncated)"
  else message

/-- A part of a report that starts on a new line; an empty or missing one is left out. -/
def furtherLine (opening : String) : Option String → String
  | some text => if text = "" then "" else "\n" ++ opening ++ text
  | none => ""

/-- The report of a failure.  `origin` tells where the failure arose. -/
def report (failure : Failure) (origin : Option String) (verbose : Bool) : String :=
  let message := cutMessage failure.message
  if verbose then
    message ++ furtherLine "  Cause: " (failure.cause.map Cause.text) ++ furtherLine "" origin
  else message

end DocStore.CommandLine
