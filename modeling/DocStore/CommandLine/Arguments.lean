import DocStore.Collection.Name
import DocStore.CommandLine.Suggestion
/-!
# The arguments of a command line

The arguments of a command line are options and operands in any order.  An option is known by its
name; it may need a value, which is the next argument or follows an equals sign.  After two dashes
alone everything is an operand.  `scan` takes out the options that are known and leaves the rest,
where an option that is not known makes all that follows it wait for someone who knows it.
-/

set_option autoImplicit false

namespace DocStore.CommandLine

/-- An option. -/
structure OptionSpec where
  /-- The long name, without its dashes. -/
  name : String
  /-- What the value is called, if the option needs one. -/
  value : Option String
deriving DecidableEq

/-- The option as it is written on a command line. -/
def OptionSpec.flag (option : OptionSpec) : String :=
  "--" ++ option.name

/-- The option as messages show it. -/
def OptionSpec.shown (option : OptionSpec) : String :=
  match option.value with
  | some value => option.flag ++ " <" ++ value ++ ">"
  | none => option.flag

/-- Why a command line is not carried out as a command. -/
inductive Stop where
  /-- The version is asked for. -/
  | version
  /-- Help is asked for, or there is nothing to do. -/
  | help (wanted : Bool)
  /-- An option has no value. -/
  | missingValue (option : OptionSpec)
  /-- An option is not known; others may be meant. -/
  | unknownOption (argument : String) (meant : List String)
  /-- A command is not known; others may be meant. -/
  | unknownCommand (argument : String) (meant : List String)
  /-- An operand is missing. -/
  | missingOperand (name : String)
  /-- The name of a collection is refused. -/
  | refusedName (name : String) (fault : Collection.NameFault)
deriving DecidableEq

/-- What a message says about a command line that is refused. -/
def Stop.message : Stop → String
  | version | help _ => ""
  | missingValue option => "error: option '" ++ option.shown ++ "' argument missing"
  | unknownOption argument meant => "error: unknown option '" ++ argument ++ "'" ++ suggestion meant
  | unknownCommand argument meant =>
      "error: unknown command '" ++ argument ++ "'" ++ suggestion meant
  | missingOperand name => "error: missing required argument '" ++ name ++ "'"
  | refusedName name fault =>
      "error: command-argument value '" ++ name ++ "' is invalid for argument 'collection'. "
        ++ fault.message

/-- What has been found among arguments. -/
structure Scan where
  /-- The options, each with its value if it has one, in their order. -/
  settings : List (String × Option String)
  /-- The operands. -/
  operands : List String
  /-- The first option that is not known and all that is left after it. -/
  unknown : List String
deriving DecidableEq

namespace Scan

/-- Nothing. -/
def nothing : Scan := ⟨[], [], []⟩

/-- One more option in front. -/
def withSetting (name : String) (value : Option String) (scan : Scan) : Scan :=
  { scan with settings := (name, value) :: scan.settings }

/-- One more argument in front. -/
def withArgument (waiting : Bool) (argument : String) (scan : Scan) : Scan :=
  if waiting then { scan with unknown := argument :: scan.unknown }
  else { scan with operands := argument :: scan.operands }

/-- All that follows two dashes. -/
def afterDashes (waiting : Bool) (rest : List String) : Scan :=
  if waiting then { nothing with unknown := "--" :: rest } else { nothing with operands := rest }

/-- Whether an option was given. -/
def has (scan : Scan) (name : String) : Bool :=
  scan.settings.any fun setting => setting.1 == name

/-- The value of an option; of several the last one. -/
def value? (scan : Scan) (name : String) : Option String :=
  (scan.settings.reverse.lookup name).join

end Scan

/-- Whether an argument has the form of an option. -/
def looksLikeOption (argument : String) : Bool :=
  match argument.toList with
  | '-' :: _ :: _ => true
  | _ => false

/-- The name and the value of an argument that has an option with an equals sign. -/
def assignment? (argument : String) : Option (String × String) :=
  match argument.toList with
  | '-' :: '-' :: rest =>
      let name := rest.takeWhile (· != '=')
      match name, rest.dropWhile (· != '=') with
      | [], _ | _, [] => none
      | _, _ :: value => some (String.ofList name, String.ofList value)
  | _ => none

/-- Whether an argument asks for the version: by its name, or by its letter, which may have others
behind it. -/
def asksVersion (argument : String) : Bool :=
  argument == "--version" ||
    match argument.toList with
    | '-' :: 'V' :: _ => true
    | _ => false

/-- Take out the known options.  `version` says whether the version can be asked for here, and
`waiting` whether an unknown option has been met. -/
def scan (version : Bool) (options : List OptionSpec) : Bool → List String → Except Stop Scan
  | _, [] => .ok .nothing
  | waiting, argument :: rest =>
      if argument = "--" then .ok (.afterDashes waiting rest)
      else if version && asksVersion argument then .error .version
      else
        match options.find? (fun option => option.flag == argument) with
        | some option =>
            match option.value with
            | none => (scan version options waiting rest).map (.withSetting option.name none)
            | some _ =>
                match rest with
                | [] => .error (.missingValue option)
                | value :: rest =>
                    (scan version options waiting rest).map (.withSetting option.name (some value))
        | none =>
            let assigned := (assignment? argument).bind fun (name, value) =>
              (options.find? fun option => option.name == name && option.value.isSome).map
                fun option => (option.name, value)
            match assigned with
            | some (name, value) =>
                (scan version options waiting rest).map (.withSetting name (some value))
            | none =>
                let waiting := waiting || looksLikeOption argument
                (scan version options waiting rest).map (.withArgument waiting argument)

end DocStore.CommandLine
