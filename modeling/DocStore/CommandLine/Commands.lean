import DocStore.CommandLine.Arguments
import DocStore.CommandLine.Input
/-!
# The commands

A command is named by a word, or by the word of a group and a word within it.  `Verb` lists the
commands with the operands and options that each takes, and `Command` is a command together with
what it was given.  `resolve` finds the command that arguments ask for; options may stand anywhere,
those of all commands as well as those of one.
-/

set_option autoImplicit false

namespace DocStore.CommandLine

/-- What can be done from the command line. -/
inductive Verb where
  | collections
  | create
  | drop
  | insert
  | save
  | get
  | find
  | findOne
  | count
  | remove
  | removeById
  | addConstraints
  | removeConstraints
  | listConstraints
deriving DecidableEq

namespace Verb

/-- All that can be done. -/
def all : List Verb :=
  [collections, create, drop, insert, save, get, find, findOne, count, remove, removeById,
   addConstraints, removeConstraints, listConstraints]

/-- The word of the group for constraints. -/
def constraintGroup : String := "constraint"

/-- The word of the group that a command is in. -/
def group : Verb → Option String
  | addConstraints | removeConstraints | listConstraints => some constraintGroup
  | _ => none

/-- The word of a command within its group. -/
def word : Verb → String
  | collections => "collections"
  | create => "create"
  | drop => "drop"
  | insert => "insert"
  | save => "save"
  | get => "get"
  | find => "find"
  | findOne => "find-one"
  | count => "count"
  | remove => "remove"
  | removeById => "rm"
  | addConstraints => "add"
  | removeConstraints => "rm"
  | listConstraints => "ls"

/-- The name of a command in timing lines. -/
def metricName (verb : Verb) : String :=
  match verb.group with
  | some group => "cli." ++ group ++ "." ++ verb.word
  | none => "cli." ++ verb.word

/-- The names of the operands that a command needs. -/
def operandNames : Verb → List String
  | collections => []
  | get | removeById => ["collection", "id"]
  | _ => ["collection"]

/-- The options for a source of JSON. -/
def sourceOptions : List OptionSpec := [⟨"file", some "path"⟩, ⟨"data", some "json"⟩]

/-- The option for JSON instead of names. -/
def jsonOption : OptionSpec := ⟨"json", none⟩

/-- The option for values on one line each. -/
def rawOption : OptionSpec := ⟨"raw", none⟩

/-- The option for removing without being asked. -/
def forceOption : OptionSpec := ⟨"force", none⟩

/-- The option for removing one document only. -/
def oneOption : OptionSpec := ⟨"one", none⟩

/-- The options of a command. -/
def options : Verb → List OptionSpec
  | collections | listConstraints => [jsonOption]
  | create => []
  | drop | removeById => [forceOption]
  | insert | save | count | addConstraints | removeConstraints => sourceOptions
  | get => [rawOption]
  | find | findOne => sourceOptions ++ [rawOption]
  | remove => sourceOptions ++ [oneOption, forceOption]

/-- The command of a word within a group. -/
def named? (group : Option String) (word : String) : Option Verb :=
  all.find? fun verb => verb.group == group && verb.word == word

theorem named?_word (verb : Verb) : named? verb.group verb.word = some verb := by
  cases verb <;> rfl

end Verb

/-- A command with what it was given. -/
structure Command where
  /-- What is to be done. -/
  verb : Verb
  /-- The collection that the command is about; empty where it is about none. -/
  collection : String
  /-- The identifier of the document that the command is about; empty where it is about none. -/
  id : String
  /-- Where the JSON input is taken from. -/
  source : Source
  /-- The options without a value that were given. -/
  flags : List String
deriving DecidableEq

/-- Whether an option without a value was given. -/
def Command.has (command : Command) (option : OptionSpec) : Bool :=
  command.flags.contains option.name

/-- The options that all commands have. -/
def commonOptions : List OptionSpec := [⟨"root", some "path"⟩, ⟨"verbose", none⟩, ⟨"quiet", none⟩]

/-- What is said to every command. -/
structure Common where
  /-- Where the data are. -/
  root : Option String
  /-- Whether more is told than usual. -/
  verbose : Bool
  /-- Whether less is told than usual. -/
  quiet : Bool
deriving DecidableEq

/-- What options say to every command. -/
def Common.ofScan (scan : Scan) : Common :=
  ⟨scan.value? "root", scan.has "verbose", scan.has "quiet"⟩

/-! ## Finding the command -/

/-- Whether an argument asks for help. -/
def asksHelp (argument : String) : Bool :=
  argument == "-h" || argument == "--help"

/-- The word that asks for help like a command. -/
def helpWord : String := "help"

/-- The options that may be meant at any place. -/
def commonFlags : List String :=
  "--help" :: "--version" :: commonOptions.map OptionSpec.flag

/-- The options that an option which is not known may mean, where a command has options of its own.
-/
def meantOptions (argument : String) (options : List OptionSpec) : List String :=
  if argument.startsWith "--" then similar argument (options.map OptionSpec.flag ++ commonFlags)
  else []

/-- Why no more can be made of arguments that are not known. -/
def refuseUnknown (options : List OptionSpec) (argument : String) (rest : List String) : Stop :=
  if (argument :: rest).any asksHelp then .help true
  else .unknownOption argument (meantOptions argument options)

/-- The name of the first operand that is missing. -/
def missing? (names operands : List String) : Option String :=
  (names.drop operands.length).head?

/-- Accept the operands of a command. -/
def checkOperands (verb : Verb) (operands : List String) : Except Stop Unit :=
  match missing? verb.operandNames operands with
  | some name => .error (.missingOperand name)
  | none =>
      match verb.operandNames, operands with
      | _ :: _, collection :: _ =>
          match Collection.nameFault? collection with
          | some fault => .error (.refusedName collection fault)
          | none => .ok ()
      | _, _ => .ok ()

/-- The command that its word, operands and options make. -/
def Command.ofParts (verb : Verb) (operands : List String) (scan : Scan) : Command where
  verb := verb
  collection := operands.getD 0 ""
  id := operands.getD 1 ""
  source := ⟨scan.value? "file", scan.value? "data"⟩
  flags := scan.settings.map Prod.fst

/-- Read the operands and the options of a command. -/
def readCommand (verb : Verb) (operands unknown : List String) : Except Stop Command := do
  let found ← scan false verb.options false unknown
  let operands := operands ++ found.operands
  match found.unknown with
  | argument :: rest => throw (refuseUnknown verb.options argument rest)
  | [] => do
      checkOperands verb operands
      return .ofParts verb operands found

/-- The words of the commands of a group, the group for constraints and help among them. -/
def wordsIn (group : Option String) : List String :=
  let words := (Verb.all.filter fun verb => verb.group == group).map Verb.word
  helpWord :: if group = none then Verb.constraintGroup :: words else words

/-- Why no command is found. -/
def refuseWords (group : Option String) : List String → List String → Stop
  | [], [] => .help false
  | [], argument :: rest => refuseUnknown [] argument rest
  | word :: _, unknown =>
      if word = helpWord || unknown.any asksHelp then .help true
      else .unknownCommand word (similar word (wordsIn group))

/-- The command whose word within a group comes first among operands. -/
def commandIn (group : Option String) (operands unknown : List String) : Except Stop Command :=
  match operands.head?.bind (Verb.named? group) with
  | some verb => readCommand verb (operands.drop 1) unknown
  | none => .error (refuseWords group operands unknown)

/-- The command that operands and arguments not known yet ask for. -/
def findCommand (operands unknown : List String) : Except Stop Command :=
  if operands.head? = some Verb.constraintGroup then do
    let found ← scan false [] false unknown
    commandIn (some Verb.constraintGroup) (operands.drop 1 ++ found.operands) found.unknown
  else commandIn none operands unknown

/-- The command that arguments ask for, and what they say to every command. -/
def resolve (arguments : List String) : Except Stop (Common × Command) := do
  let found ← scan true commonOptions false arguments
  let command ← findCommand found.operands found.unknown
  return (.ofScan found, command)

end DocStore.CommandLine
