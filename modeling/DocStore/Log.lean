import DocStore.Text.Capital
/-!
# Log lines

An event is logged at a level.  A logger has a threshold and can be switched off; it lets an event
pass when it is on and the level is not below the threshold.  `Event.line` is the text of an event:
time, level and name, then what the event is about, a message and details, as far as they are given.

A level that is none of the four usual ones lies below all of them, so a logger with such a
threshold lets everything pass.
-/

set_option autoImplicit false

namespace DocStore.Log

/-- The level of an event. -/
inductive Level where
  | debug
  | info
  | warn
  | error
  /-- A level that is none of the usual ones. -/
  | other (name : String)
deriving DecidableEq

namespace Level

/-- The usual levels, from the least to the most important. -/
def usual : List Level := [debug, info, warn, error]

/-- The name of a level. -/
def name : Level → String
  | debug => "debug"
  | info => "info"
  | warn => "warn"
  | error => "error"
  | other name => name

/-- The usual level of a given name. -/
def ofName? (name : String) : Option Level :=
  usual.find? fun level => level.name == name

/-- The level of a given name. -/
def named (name : String) : Level :=
  (ofName? name).getD (other name)

/-- The place of a level in the rising order. -/
def rank : Level → Nat
  | other _ => 0
  | debug => 1
  | info => 2
  | warn => 3
  | error => 4

/-- Whether a level is one of the usual ones. -/
def isUsual : Level → Bool
  | other _ => false
  | _ => true

/-- Whether lines of a level belong to the errors. -/
def isUrgent : Level → Bool
  | warn | error => true
  | _ => false

theorem ofName?_name {level : Level} (isUsual : level.isUsual = true) :
    ofName? level.name = some level := by
  cases level with
  | other name => contradiction
  | debug | info | warn | error => rfl

/-- The level that the environment asks for: a debugging mark wins over a named level, and without
a known name it is `warn`. -/
def ofEnvironment (valueOf : String → Option String) : Level :=
  if valueOf "PATCHDB_DEBUG" = some "1" then debug
  else
    match valueOf "PATCHDB_LOG_LEVEL" with
    | some name => (ofName? (name.map Char.toLower)).getD warn
    | none => warn

end Level

/-- What is known about an event. -/
structure Data where
  /-- What the event is about. -/
  subject : Option String
  /-- A message. -/
  message : Option String
  /-- Details, as JSON text. -/
  details : Option String
deriving DecidableEq

namespace Data

/-- The parts of the line of an event that follow its name; an empty message is left out. -/
def parts (data : Data) : List (Option String) :=
  [data.subject, data.message.filter (· != ""), data.details]

end Data

/-- The text of what an event is about: a collection and a field of its documents. -/
def subjectText (collection field : String) : String :=
  collection ++ "/" ++ field

/-- An event at a level. -/
structure Event where
  /-- The level of the event. -/
  level : Level
  /-- The name of the event. -/
  name : String
  /-- What is known about the event. -/
  data : Data
deriving DecidableEq

/-- A line of a time, a level, the name of an event and further parts, as far as they are there. -/
def lineText (time level name : String) (parts : List (Option String)) : String :=
  let opening := "[" ++ time ++ "] [" ++ Text.capitals level ++ "] [" ++ name ++ "]"
  String.intercalate " " (opening :: parts.filterMap id)

/-- The text of the line of an event. -/
def Event.line (time : String) (event : Event) : String :=
  lineText time event.level.name event.name event.data.parts

/-- A logger. -/
structure Logger where
  /-- The least level that passes. -/
  threshold : Level
  /-- Whether the logger is switched on. -/
  enabled : Bool
deriving DecidableEq

namespace Logger

/-- Whether a logger lets a level pass. -/
def passes (logger : Logger) (level : Level) : Bool :=
  logger.enabled && decide (logger.threshold.rank ≤ level.rank)

/-- The logger with another threshold. -/
def withLevel (logger : Logger) (level : Level) : Logger :=
  { logger with threshold := level }

end Logger

end DocStore.Log
