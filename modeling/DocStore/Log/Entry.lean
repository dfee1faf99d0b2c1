import DocStore.Caller.Plain
import DocStore.Log
/-!
# Log entries of callers

A caller may give the entry of an event as a value of its own, with the time, the level, the event
and what is known about it in fields.  The level has to be a text; every other part is written by
its text form, and the details as JSON.  What counts as nothing is left out, except for the time and
the event.  An entry with a part that has no such text has no line.
-/

set_option autoImplicit false

namespace DocStore.Log

open Caller (View Value)

/-- An entry of a caller: its parts, each under its name. -/
abbrev Entry : Type := List (String × View)

namespace Entry

/-- The part of a name; a missing one holds no value. -/
def part (entry : Entry) (name : String) : View :=
  (entry.lookup name).getD (.ofValue .absent)

/-- The text of one side of what an entry is about; no value and null are empty. -/
def sideText? (side : View) : Option String :=
  if side.value.isMissing then some "" else side.shown?

/-- What an entry is about. -/
def subject? (entry : Entry) : Option (Option String) := do
  let collection := entry.part "collection"
  let field := entry.part "field"
  if collection.value.isNothing && field.value.isNothing then return none
  else return some (subjectText (← sideText? collection) (← sideText? field))

/-- The message of an entry. -/
def message? (entry : Entry) : Option (Option String) :=
  let message := entry.part "message"
  if message.value.isNothing then some none else message.shown?.map some

/-- The details of an entry, which are empty where they have no place in JSON. -/
def details? (entry : Entry) : Option (Option String) :=
  let details := entry.part "details"
  if details.value.isNothing then some none
  else (details.jsonText .line).toOption.map fun text => some (text.getD "")

/-- The level of an entry, which an object may decide by a function of its own. -/
def level? (entry : Entry) : Option String :=
  match (entry.part "level").value with
  | .scalar (.string name) => some name
  | value => if Caller.holdsFunction "toUpperCase" value.fields then some "1" else none

/-- The line of an entry. -/
def line? (entry : Entry) : Option String := do
  let time ← (entry.part "timestamp").shown?
  let level ← entry.level?
  let event ← (entry.part "event").shown?
  let parts := [← entry.subject?, ← entry.message?, ← entry.details?]
  return lineText time level event parts

/-- The entry of an event; what the caller's data say about its time, level or event goes before. -/
def ofEvent (time : String) (level event data : Value) : Entry :=
  (View.ofValue data).entries?.getD []
    ++ [("timestamp", .ofValue (.ofString time)), ("level", .ofValue level),
      ("event", .ofValue event)]

end Entry

/-- The level that a value stands for; only a text names a usual one. -/
def Level.ofValue (value : Value) : Level :=
  (value.string?.map named).getD (.other "")

/-- The level that the variables of a caller ask for; a level that is given has to be a text. -/
def Level.ofVariables? (valueOf : String → Value) : Option Level :=
  let text? (name : String) := (valueOf name).string?
  let level := valueOf "PATCHDB_LOG_LEVEL"
  if text? "PATCHDB_DEBUG" = some "1" || level.isMissing || level.string?.isSome then
    some (.ofEnvironment text?)
  else none

/-- The line of an entry that a caller gives as one value. -/
def entryLine? (entry : Value) : Option String :=
  Entry.line? (View.ofValue entry).fields

end DocStore.Log
