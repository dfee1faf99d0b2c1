import DocStore.Text.Literal
/-!
# Errors of the operating system

A call to the operating system fails with one of a fixed set of error numbers.  Each has a symbolic
name and a description, and `CallError.message` says which call failed on which path.  A path that
no call can be made on is refused with an error of its own, and so is an argument of a wrong type.
-/

set_option autoImplicit false

namespace DocStore.Disk

/-- The error numbers that calls can fail with. -/
inductive Errno where
  /-- Permission is denied. -/
  | access
  /-- A handle is not open. -/
  | badHandle
  /-- A file is in use. -/
  | busy
  /-- The entry exists already. -/
  | exists
  /-- An argument is not valid. -/
  | invalid
  /-- The device failed. -/
  | device
  /-- The entry is a directory. -/
  | isDirectory
  /-- Too many links were followed. -/
  | loop
  /-- A name or path is too long. -/
  | nameTooLong
  /-- There is no such entry. -/
  | noEntry
  /-- The device is full. -/
  | noSpace
  /-- The call does not exist. -/
  | noCall
  /-- The entry is not a directory. -/
  | notDirectory
  /-- The directory is not empty. -/
  | notEmpty
  /-- The call is not supported. -/
  | notSupported
  /-- The operation is not permitted. -/
  | notPermitted
  /-- The device is read-only. -/
  | readOnly
  /-- The paths lie on different devices. -/
  | crossDevice
  /-- The path holds a character of code zero. -/
  | impossiblePath
  /-- An argument is of a type that the call does not take. -/
  | wrongType
deriving DecidableEq

namespace Errno

/-- The symbolic name of an error number. -/
def name : Errno → String
  | access => "EACCES"
  | badHandle => "EBADF"
  | busy => "EBUSY"
  | .exists => "EEXIST"
  | invalid => "EINVAL"
  | device => "EIO"
  | isDirectory => "EISDIR"
  | loop => "ELOOP"
  | nameTooLong => "ENAMETOOLONG"
  | noEntry => "ENOENT"
  | noSpace => "ENOSPC"
  | noCall => "ENOSYS"
  | notDirectory => "ENOTDIR"
  | notEmpty => "ENOTEMPTY"
  | notSupported => "ENOTSUP"
  | notPermitted => "EPERM"
  | readOnly => "EROFS"
  | crossDevice => "EXDEV"
  | impossiblePath => "ERR_INVALID_ARG_VALUE"
  | wrongType => "ERR_INVALID_ARG_TYPE"

/-- The description of an error number. -/
def description : Errno → String
  | access => "permission denied"
  | badHandle => "bad file descriptor"
  | busy => "resource busy or locked"
  | .exists => "file already exists"
  | invalid => "invalid argument"
  | device => "i/o error"
  | isDirectory => "illegal operation on a directory"
  | loop => "too many symbolic links encountered"
  | nameTooLong => "name too long"
  | noEntry => "no such file or directory"
  | noSpace => "no space left on device"
  | noCall => "function not implemented"
  | notDirectory => "not a directory"
  | notEmpty => "directory not empty"
  | notSupported => "operation not supported on socket"
  | notPermitted => "operation not permitted"
  | readOnly => "read-only file system"
  | crossDevice => "cross-device link not permitted"
  | impossiblePath => "path with a null byte"
  | wrongType => "argument of another type"

end Errno

/-- A failed call. -/
structure CallError where
  /-- The error number. -/
  errno : Errno
  /-- The name of the call. -/
  call : String
  /-- The path that the call was made on, if any. -/
  path : Option String
deriving DecidableEq

/-- What a message says about a path that no call can be made on. -/
def impossiblePathMessage (path : String) : String :=
  "The argument 'path' must be a string, Uint8Array, or URL without null bytes. Received "
    ++ Text.shortLiteral path

/-- What a message says about a failed call. -/
def CallError.message (error : CallError) : String :=
  if error.errno = .impossiblePath then impossiblePathMessage (error.path.getD "")
  else error.errno.name ++ ": " ++ error.errno.description ++ ", " ++ error.call
    ++ match error.path with
      | some path => " '" ++ path ++ "'"
      | none => ""

end DocStore.Disk
