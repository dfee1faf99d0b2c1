import DocStore.Error.Failure
/-!
# What a program reads of a failure

A failure is described by fields: the name of its kind, a code where the kind has one, the message,
what else is known, and the cause.  A failure of the operating system has a number and no message,
and so do failures that only a damaged program meets.
-/

set_option autoImplicit false

namespace DocStore

/-- What is read of something: fields of a JSON object. -/
abbrev Description : Type := List (String × Json)

namespace Description

/-- A field that may be missing. -/
def optional (key : String) (value : Option Json) : Description :=
  (value.map fun value => (key, value)).toList

/-- A field that holds a text. -/
def told (key value : String) : Description :=
  [(key, Json.string value)]

end Description

open Description (told optional)

/-- What is read of a cause. -/
def Cause.describe : Cause → Description
  | system errno => told "errno" errno.name
  | malformedJson => told "name" "SyntaxError"
  | fileExists path => named "FileExistsError" (Failure.fileExists path).message
  | wrongType message => named "TypeError" message
  | stated message => named "Error" message
where
  named (name message : String) : Description := told "name" name ++ told "message" message

/-- The field of a cause that may be missing. -/
def Cause.field (cause : Option Cause) : Description :=
  optional "cause" (cause.map fun cause => .object cause.describe)

/-- What is read of a failure. -/
def Failure.describe (failure : Failure) : Description :=
  let message := told "message" failure.message
  match failure with
  | .database error =>
      let kind := error.fault.kind
      told "error" kind.name ++ optional "code" (kind.code?.map Json.string) ++ message
        ++ error.fault.details ++ Cause.field error.cause
  | .system error => told "error" "SystemError" ++ told "errno" error.errno.name
  | .fileExists _ => told "error" "FileExistsError" ++ told "code" "EEXIST" ++ message
  | .plain _ _ => told "error" "Error" ++ message
  | .illTyped => told "error" "TypeError"
  | .endless => told "error" "RangeError"
  | .uncopied _ => told "error" "DataCloneError" ++ message
  | .usage code _ _ => told "error" "CommanderError" ++ told "code" code ++ message
  | .command _ exitCode cause =>
      told "error" "CliError" ++ message ++ [("exitCode", Json.number (.ofNat exitCode))]
        ++ Cause.field cause
  | .unanswered => []

end DocStore
