import DocStore.Disk.Path
import DocStore.Log
/-!
# Where a command runs

A command finds out from its environment where the data are, whether timing lines are printed and
whether its input is a terminal.  The root of the data is given by an option, else by a variable,
else it is a directory below the working directory; a tilde at its start stands for the home
directory.
-/

set_option autoImplicit false

namespace DocStore.CommandLine

open Disk (Path)

/-- The surroundings of a command. -/
structure Environment where
  /-- The value of a variable, if it has one. -/
  valueOf : String → Option String
  /-- The home directory. -/
  home : String
  /-- The working directory. -/
  workingDirectory : Path
  /-- Whether the input is a terminal. -/
  isTerminal : Bool
  /-- Who is told about what is going on, where the options say nothing else; a process has one such
  logger. -/
  logger : Log.Logger

/-- Where the data are, if nothing else is said. -/
def defaultRoot : String := "./data"

/-- The characters that may end a line. -/
def isLineEnd (character : Char) : Bool :=
  character == '\n' || character == '\r' || character == '\u2028' || character == '\u2029'

/-- A text up to its first line end. -/
def untilLineEnd (text : String) : String :=
  String.ofList (text.toList.takeWhile fun character => !isLineEnd character)

/-- A text with a tilde at its start replaced by the home directory.  The tilde stands alone or
before a solidus of either kind; what follows the first line end is dropped. -/
def expandTilde (home text : String) : String :=
  match text.toList with
  | ['~'] => home
  | '~' :: '/' :: rest | '~' :: '\\' :: rest =>
      Path.join home (untilLineEnd (String.ofList rest))
  | _ => text

/-- The root of the data. -/
def resolveRoot (environment : Environment) (option : Option String) : Path :=
  let text := (option.or (environment.valueOf "PATCHDB_ROOT")).getD defaultRoot
  Path.resolve environment.workingDirectory (expandTilde environment.home text)

/-- Whether timing lines are printed. -/
def isTimed (environment : Environment) : Bool :=
  environment.valueOf "PATCHDB_CLI_DEBUG" == some "1"

/-- The log level that the options ask for, if they do. -/
def logLevel? (verbose quiet : Bool) : Option Log.Level :=
  if quiet then some .error
  else if verbose then some .info
  else none

end DocStore.CommandLine
