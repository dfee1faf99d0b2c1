import DocStore.Caller.Normal
import DocStore.Caller.Plain
import DocStore.Collection.Name
import DocStore.Constraint.Check
import DocStore.Constraint.Spec
import DocStore.Disk.Errno
/-!
# What the database refuses

A database operation that cannot be done ends in a fault.  Every fault belongs to a kind; the kinds
form a hierarchy, with the conflicts and the failures of the store below kinds of their own.
`Fault.message` is the text of a fault, and a `DatabaseError` adds the cause that a lower layer
gave.
-/

set_option autoImplicit false

namespace DocStore

/-- Why a caller's input is refused. -/
inductive InputFault where
  /-- The name of a collection is refused. -/
  | name (fault : Collection.NameFault)
  /-- An identifier is not a text; `shown` is how the message shows it. -/
  | identifier (shown : String)
  /-- A value has no normal form. -/
  | misfit (misfit : Caller.Misfit)
  /-- A specification is refused. -/
  | spec (refusal : SpecRefusal)
  /-- Refused with a stated message. -/
  | stated (message : String)
deriving DecidableEq

/-- What a message says about refused input. -/
def InputFault.message : InputFault → String
  | name fault => fault.message
  | identifier shown =>
      "The _id field is not a string: " ++ shown ++ ". The _id field must be a string"
  | .misfit found => found.message
  | spec refusal => refusal.message
  | stated message => message

/-- Why no identifier can be produced. -/
inductive IdFault where
  /-- The generator failed. -/
  | failed
  /-- The generator produced a value that is not a text, or an empty one. -/
  | unusable (shown : String)
  /-- Refused with a stated message. -/
  | stated (message : String)
deriving DecidableEq

/-- What a message says about a missing identifier. -/
def IdFault.message : IdFault → String
  | failed => "Identifier generator failed"
  | unusable shown => "Identifier generator returned an unusable value: " ++ shown
  | stated message => message

/-- The kinds of faults. -/
inductive FaultKind where
  /-- The kind of all faults. -/
  | any
  /-- The caller's input has the wrong type or shape. -/
  | input
  /-- A write would contradict what is stored. -/
  | conflict
  /-- An identifier is taken. -/
  | duplicateId
  /-- A field would have two declared types. -/
  | typeConflict
  /-- A document breaks constraints. -/
  | violation
  /-- No identifier can be produced. -/
  | idGeneration
  /-- The store failed. -/
  | store
  /-- A file cannot be read. -/
  | read
  /-- A file cannot be written. -/
  | write
  /-- A file cannot be removed. -/
  | remove
  /-- A directory operation failed. -/
  | directory
  /-- A directory cannot be listed. -/
  | list
  /-- A lock was not obtained in time. -/
  | lockTimeout
deriving DecidableEq

namespace FaultKind

/-- All kinds, every kind after the kinds it belongs to. -/
def all : List FaultKind :=
  [any, input, conflict, duplicateId, typeConflict, violation, idGeneration, store, read, write,
   remove, directory, list, lockTimeout]

/-- The name of the errors of a kind. -/
def name : FaultKind → String
  | any => "PatchDbError"
  | input => "InputTypeError"
  | conflict => "ConflictError"
  | duplicateId => "DuplicateIdError"
  | typeConflict => "TypeConstraintConflictError"
  | violation => "ConstraintViolationError"
  | idGeneration => "IdGenerationError"
  | store => "StoreError"
  | read => "DocumentReadError"
  | write => "DocumentWriteError"
  | remove => "DocumentRemoveError"
  | directory => "DirectoryError"
  | list => "ListFilesError"
  | lockTimeout => "LockTimeoutError"

/-- The next wider kind. -/
def wider : FaultKind → Option FaultKind
  | any => none
  | duplicateId | typeConflict => some conflict
  | read | write | remove | directory | list | lockTimeout => some store
  | _ => some any

/-- Whether faults of one kind are faults of another. -/
def within (kind other : FaultKind) : Bool :=
  kind == other
    || match kind.wider with
      | none => false
      | some next => next == other || next.wider == some other

/-- The stable code of a kind; the widest kinds have none of their own. -/
def code? : FaultKind → Option String
  | any | store => none
  | input => some "E_INPUT_TYPE"
  | conflict | duplicateId | typeConflict => some "E_CONFLICT"
  | violation => some "E_CONSTRAINT"
  | idGeneration => some "E_ID_GENERATION"
  | read => some "READ_ERROR"
  | write => some "WRITE_ERROR"
  | remove => some "REMOVE_ERROR"
  | directory => some "DIRECTORY_ERROR"
  | list => some "LIST_ERROR"
  | lockTimeout => some "LOCK_TIMEOUT"

end FaultKind

/-- Why an operation cannot be done. -/
inductive Fault where
  /-- A fault of which nothing but a message is known. -/
  | stated (message : String)
  /-- A fault of the store of which nothing but a message is known. -/
  | store (message : String)
  | input (fault : InputFault)
  | conflict (message : String)
  | duplicateId (collection id : Caller.Shown)
  | typeConflict (field existing requested : Caller.Shown)
  | violation (collection : Caller.Shown) (violations : List Violation)
  | idGeneration (fault : IdFault)
  | read (path : String)
  | write (path : String)
  | remove (path : String)
  | directory (path : String)
  | list (path : String)
  | lockTimeout (path : String) (milliseconds : Caller.Shown)
deriving DecidableEq

namespace Fault

/-- The kind of a fault. -/
def kind : Fault → FaultKind
  | stated _ => .any
  | store _ => .store
  | input _ => .input
  | conflict _ => .conflict
  | duplicateId _ _ => .duplicateId
  | typeConflict _ _ _ => .typeConflict
  | violation _ _ => .violation
  | idGeneration _ => .idGeneration
  | read _ => .read
  | write _ => .write
  | remove _ => .remove
  | directory _ => .directory
  | list _ => .list
  | lockTimeout _ _ => .lockTimeout

/-- The text of a fault. -/
def message : Fault → String
  | stated message | store message | conflict message => message
  | input fault => fault.message
  | duplicateId collection id =>
      "Document with _id \"" ++ id.text ++ "\" already exists in collection \"" ++ collection.text
        ++ "\""
  | typeConflict field existing requested =>
      "Contradictory $type \"" ++ requested.text ++ "\" constraint on field \"" ++ field.text
        ++ "\": remove the existing $type \"" ++ existing.text ++ "\" constraint first"
  | violation collection violations =>
      "Document violates " ++ toString violations.length ++ " constraint(s) on collection \""
        ++ collection.text ++ "\": "
        ++ String.intercalate "; " (violations.map Violation.message)
  | idGeneration fault => fault.message
  | read path => "Failed to read document: " ++ path
  | write path => "Failed to write document: " ++ path
  | remove path => "Failed to remove document: " ++ path
  | directory path => "Directory operation failed: " ++ path
  | list path => "Failed to list files in directory: " ++ path
  | lockTimeout path milliseconds =>
      "Failed to acquire lock after " ++ milliseconds.text ++ "ms. Lock file: " ++ path
        ++ ". This may indicate a stale lock from a crashed process - "
        ++ "manually delete the lock file if safe."

/-- What is known about a fault beside its text, by names. -/
def details : Fault → List (String × Json)
  | duplicateId collection id => Caller.Shown.details [("collection", collection), ("id", id)]
  | typeConflict field existing requested =>
      Caller.Shown.details [("field", field), ("existing", existing), ("requested", requested)]
  | violation collection violations =>
      Caller.Shown.details [("collection", collection)]
        ++ [("violations", .array (violations.map Violation.toJson))]
  | lockTimeout _ milliseconds => Caller.Shown.details [("timeoutMs", milliseconds)]
  | _ => []

end Fault

/-- What a lower layer gave as the reason of an error. -/
inductive Cause where
  /-- A call to the operating system failed. -/
  | system (errno : Disk.Errno)
  /-- A text is not JSON. -/
  | malformedJson
  /-- A file that was to be created is there already. -/
  | fileExists (path : String)
  /-- An argument is of the wrong type, with a message. -/
  | wrongType (message : String)
  /-- An error with a message. -/
  | stated (message : String)
deriving DecidableEq

/-- The text of a cause, which names its sort. -/
def Cause.text : Cause → String
  | system errno => "Error: " ++ errno.name ++ ": " ++ errno.description
  | malformedJson => "SyntaxError: Unexpected token in JSON"
  | fileExists path => "FileExistsError: File already exists: " ++ path
  | wrongType message => "TypeError: " ++ message
  | stated message => if message = "" then "Error" else "Error: " ++ message

/-- A fault together with its cause, if a lower layer gave one. -/
structure DatabaseError where
  /-- Why the operation cannot be done. -/
  fault : Fault
  /-- What a lower layer gave as the reason. -/
  cause : Option Cause
deriving DecidableEq

end DocStore
