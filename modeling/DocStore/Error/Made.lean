import DocStore.Error.Description
/-!
# Errors that callers make

A caller may make an error of its own from the name of its kind and arguments.  Whatever
the arguments are, the message tells them by their text forms and the error keeps them as they are
given.  A cause is one more argument after all others: it is the cause of the error when it comes
right after the arguments that the kind has, an argument like any other when it comes before, and
is not noticed when it comes after.
-/

set_option autoImplicit false

namespace DocStore

open Caller (Shown)
open Description (optional)

/-- An error that a caller has made. -/
structure Made where
  /-- The error. -/
  failure : Failure
  /-- What the error keeps as it was given, by names; nothing where it was not given. -/
  given : List (String × Option Json)

/-- The arguments of an error. -/
structure Arguments where
  /-- The arguments that are given, and the cause if it takes the place of an argument. -/
  values : List Json
  /-- The cause. -/
  cause : Option Cause

namespace Arguments

/-- A cause in the place of an argument. -/
def causeValue : Json := .object [("cause", .object [])]

/-- The arguments of an error of a kind that has so many. -/
def ofList (count : Nat) (values : List Json) (cause : Option String) : Arguments :=
  match cause with
  | none => ⟨values, none⟩
  | some message =>
      if values.length = count then ⟨values, some (.stated message)⟩
      else if values.length < count then ⟨values ++ [causeValue], none⟩
      else ⟨values, none⟩

/-- The argument of a place, as a caller's value. -/
def value (arguments : Arguments) (place : Nat) : Caller.Value :=
  ((arguments.values[place]?).map Caller.ofJson).getD .absent

/-- The argument of a place, as an error shows it. -/
def shown? (arguments : Arguments) (place : Nat) : Option Shown :=
  Shown.ofView? (.ofValue (arguments.value place))

/-- The text of the argument of a place. -/
def text? (arguments : Arguments) (place : Nat) : Option String :=
  Caller.text? (arguments.value place)

/-- The message of the argument of a place; without an argument it is empty. -/
def message? (arguments : Arguments) (place : Nat) : Option String :=
  if (arguments.value place).isAbsent then some "" else arguments.text? place

/-- The error of a database fault. -/
def fault (arguments : Arguments) (fault : Fault) : Made :=
  ⟨.database ⟨fault, arguments.cause⟩, []⟩

/-- A violation that a caller describes; its message is empty where it is nothing. -/
def violation? (item : Json) : Option Violation :=
  let message := ((item.field? "message").map Caller.ofJson).getD .absent
  if (Caller.ofJson item).isMissing then none
  else if message.isMissing then some ⟨.object [], ""⟩
  else (Caller.text? message).map fun text => ⟨.object [], text⟩

end Arguments

namespace Made

/-- An error of a kind whose one argument is the message. -/
def stated? (values : List Json) (cause : Option String) (make : String → Fault) : Option Made :=
  let arguments := Arguments.ofList 1 values cause
  (arguments.message? 0).map fun message => arguments.fault (make message)

/-- An error of a kind whose one argument is a path. -/
def placed? (values : List Json) (cause : Option String) (make : String → Fault) : Option Made :=
  let arguments := Arguments.ofList 1 values cause
  (arguments.text? 0).map fun path => arguments.fault (make path)

/-- An error about violations, which have to be a list. -/
def violation? (values : List Json) (cause : Option String) : Option Made := do
  let arguments := Arguments.ofList 2 values cause
  let given : Option Json := arguments.values[1]?
  match given with
  | some (.array items) =>
      let found ← items.mapM Arguments.violation?
      let made := arguments.fault (.violation (← arguments.shown? 0) found)
      return { made with given := [("violations", some (.array items))] }
  | _ => none

/-- An error of the command line, whose arguments are the exit code, a code and the message. -/
def usage? (values : List Json) (cause : Option String) : Option Made := do
  let arguments := Arguments.ofList 3 values cause
  let failure := Failure.usage ((← arguments.shown? 1).text) 1 (← arguments.message? 2)
  return ⟨failure, [("exit", arguments.values[0]?), ("code", arguments.values[1]?)]⟩

/-- An error of a command, whose arguments are the message and an object with the exit code. -/
def command? (values : List Json) (cause : Option String) : Option Made := do
  let message ← (Arguments.mk values none).message? 0
  let failure := Failure.command message 1 (cause.map .stated)
  let given : Option Json := (values[1]?).bind fun options => options.field? "exitCode"
  match given with
  | none | some (.leaf .null) => return ⟨failure, []⟩
  | some code => return ⟨failure, [("exitCode", some code), ("exit", some code)]⟩

/-- The error of a kind with some arguments and perhaps a cause; nothing where an argument has no
text form, or where there is no such kind. -/
def ofArguments? (kind : String) (values : List Json) (cause : Option String) : Option Made :=
  let one := Arguments.ofList 1 values cause
  let two := Arguments.ofList 2 values cause
  let three := Arguments.ofList 3 values cause
  match kind with
  | "CliError" => command? values cause
  | "CommanderError" => usage? values cause
  | "InvalidArgumentError" =>
      (one.message? 0).map fun message =>
        ⟨.invalidArgument message, [("name", some (Json.string kind))]⟩
  | "FileExistsError" => (one.text? 0).map fun path => ⟨.fileExists path, []⟩
  | "Error" => (one.message? 0).map fun message => ⟨.plain message one.cause, []⟩
  | "PatchDbError" => stated? values cause .stated
  | "StoreError" => stated? values cause .store
  | "InputTypeError" => stated? values cause (.input ∘ .stated)
  | "ConflictError" => stated? values cause .conflict
  | "IdGenerationError" => stated? values cause (.idGeneration ∘ .stated)
  | "DuplicateIdError" => do
      return two.fault (.duplicateId (← two.shown? 0) (← two.shown? 1))
  | "TypeConstraintConflictError" => do
      return three.fault
        (.typeConflict (← three.shown? 0) (← three.shown? 1) (← three.shown? 2))
  | "ConstraintViolationError" => violation? values cause
  | "DocumentReadError" => placed? values cause .read
  | "DocumentWriteError" => placed? values cause .write
  | "DocumentRemoveError" => placed? values cause .remove
  | "DirectoryError" => placed? values cause .directory
  | "ListFilesError" => placed? values cause .list
  | "LockTimeoutError" => do
      return two.fault (.lockTimeout (← two.text? 0) (← two.shown? 1))
  | _ => none

/-- The kinds that an error belongs to. -/
def kinds (made : Made) : List FaultKind :=
  match made.failure with
  | .database error => FaultKind.all.filter fun kind => error.fault.kind.within kind
  | _ => []

/-- What is read of an error: the description of the failure, then its name, the kinds that it
belongs to and the exit code of a command that it ends.  What the error keeps as it was given stands
for what is usual, and is missing where it was not given. -/
def describe (made : Made) : Description :=
  let failure := made.failure.describe
  let usual := failure ++ optional "name" (failure.lookup "error")
    ++ [("is", .array (made.kinds.map fun kind => Json.string kind.name)),
      ("exit", Json.number (.ofNat made.failure.exitCode))]
  usual.filterMap fun (key, value) =>
    ((made.given.lookup key).getD (some value)).map fun value => (key, value)

end Made

end DocStore
