import DocStore.Caller.Plain
import DocStore.Error.Fault
/-!
# How a run can fail

A run fails with a database error, with an error of the operating system that no layer has wrapped,
with an error of the command line, or with a plain error; or it ends early, with a question that
nobody answers.  `Failure.exitCode` is the exit code that a command gives for it.
-/

set_option autoImplicit false

namespace DocStore

/-- The code of a command line error for a refused argument. -/
def invalidArgumentCode : String := "commander.invalidArgument"

/-- Why a run fails. -/
inductive Failure where
  /-- The database refuses or fails the operation. -/
  | database (error : DatabaseError)
  /-- A call to the operating system failed. -/
  | system (error : Disk.CallError)
  /-- A file that was to be created is there already. -/
  | fileExists (path : String)
  /-- An error with a message. -/
  | plain (message : String) (cause : Option Cause)
  /-- A value has no text form where one is needed. -/
  | illTyped
  /-- A search in values that hold themselves has no end. -/
  | endless
  /-- A value cannot be copied; `shown` is how the message shows it. -/
  | uncopied (shown : String)
  /-- The command line or its input is refused. -/
  | usage (code : String) (exitCode : Nat) (message : String)
  /-- A command cannot be done. -/
  | command (message : String) (exitCode : Nat) (cause : Option Cause)
  /-- A question is not answered, since the input ends before; the process ends without a word. -/
  | unanswered
deriving DecidableEq

namespace Failure

/-- A fault without a cause. -/
def ofFault (fault : Fault) : Failure :=
  .database ⟨fault, none⟩

/-- Refused input. -/
def ofInput (fault : InputFault) : Failure :=
  .ofFault (.input fault)

/-- A fault that a failed call caused. -/
def ofCall (fault : Fault) (errno : Disk.Errno) : Failure :=
  .database ⟨fault, some (.system errno)⟩

/-- A plain error without a cause. -/
def stated (message : String) : Failure :=
  .plain message none

/-- A refused argument. -/
def invalidArgument (message : String) : Failure :=
  .usage invalidArgumentCode 1 message

/-- What is made of a value, which fails where it has no text form. -/
def ofText? {α : Type} (made : Option α) : Except Failure α :=
  match made with
  | some made => .ok made
  | none => .error .illTyped

/-- What becomes of a value that has no JSON form. -/
def ofRefusal : Caller.Refusal → Failure
  | .circular => .stated "Circular reference detected in object"
  | .unbounded => .illTyped

/-- The text of a failure. -/
def message : Failure → String
  | database error => error.fault.message
  | system error => error.message
  | fileExists path => "File already exists: " ++ path
  | plain message _ => message
  | illTyped => "Cannot convert object to primitive value"
  | endless => "Maximum call stack size exceeded"
  | uncopied shown => shown ++ " could not be cloned."
  | usage _ _ message => message
  | command message _ _ => message
  | unanswered => ""

/-- What caused a failure, if a lower layer said so. -/
def cause : Failure → Option Cause
  | database error => error.cause
  | plain _ cause => cause
  | command _ _ cause => cause
  | _ => none

/-- The exit code of a command that fails; only the command line's own failures choose theirs. -/
def exitCode : Failure → Nat
  | usage _ exitCode _ => exitCode
  | command _ exitCode _ => exitCode
  | unanswered => 0
  | _ => 1

end Failure

end DocStore
