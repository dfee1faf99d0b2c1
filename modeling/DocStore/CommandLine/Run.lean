import DocStore.CommandLine.Commands
import DocStore.CommandLine.Output
import DocStore.Database.Session
/-!
# Carrying out a command line

`run` carries out a command line from its arguments to its exit code.  A command reads its input
first, asks for confirmation where it destroys something, opens the database and prints what came of
it.  A failure is reported on the stream for errors; a command line that names no command is refused
before anything is read.
-/

set_option autoImplicit false

namespace DocStore.CommandLine

open Database (Session Operation)
open Host (Action printLine)

/-- The version of the program. -/
def versionText : String := "0.1.0"

/-- The exit code of a command that does not find what it is about. -/
def notFoundCode : Nat := 2

/-- What a command works with. -/
structure Setting where
  /-- Where the command runs. -/
  environment : Environment
  /-- What is said to every command. -/
  common : Common
  /-- The command. -/
  command : Command

namespace Setting

/-- The logger of the database. -/
def logger (setting : Setting) : Log.Logger :=
  Session.loggerFor setting.environment.logger none
    (logLevel? setting.common.verbose setting.common.quiet)

/-- The database. -/
def session (setting : Setting) : Session :=
  let root := resolveRoot setting.environment setting.common.root
  .start 0 (.files (.ofOptions root .absent .absent .absent setting.logger)) setting.logger

/-- Do an operation of the database. -/
def perform (setting : Setting) (operation : Operation) : Action operation.Result :=
  setting.session.perform operation

/-- The collection that the command is about. -/
def collection (setting : Setting) : String :=
  setting.command.collection

/-- The collection, as an argument of an operation. -/
def collectionValue (setting : Setting) : Caller.Value :=
  .ofString setting.collection

/-- The identifier, as an argument of an operation. -/
def idValue (setting : Setting) : Caller.Value :=
  .ofString setting.command.id

/-- How messages name the document that the command is about. -/
def documentName (setting : Setting) : String :=
  setting.collection ++ "/" ++ setting.command.id

/-- Print an outcome in words, unless that is silenced. -/
def tell (setting : Setting) (message : String) : Action Unit :=
  printStatus setting.common.quiet message

/-- Print a value as the command's options say. -/
def display (setting : Setting) (value : Json) : Action Unit :=
  printJson (setting.command.has Verb.rawOption) value

/-- Fail because something is not there. -/
def notFound (message : String) : Action Unit :=
  Attempt.fail (.command message notFoundCode none)

/-- Ask before something is destroyed. -/
def confirmed (setting : Setting) (question : String) : Action Unit :=
  confirm setting.environment (setting.command.has Verb.forceOption) question

/-! ## Input -/

/-- The value that the command is given, where it may come from the input as well. -/
def input (setting : Setting) : Action Caller.Value := do
  let value ← readSource setting.environment setting.command.source true
  return (value.map Caller.ofJson).getD .absent

/-- The document that the command is given. -/
def document (setting : Setting) : Action Caller.Value := do
  let value ← setting.input
  let document ← Attempt.ofExcept
    ((Caller.normalObject "Document" value).mapError fun misfit => .ofInput (.misfit misfit))
  return Caller.ofJson document

/-- The specification that the command is given. -/
def spec (setting : Setting) : Action Caller.Value := do
  let value ← setting.input
  Attempt.ofExcept ((checkSpec value).mapError fun refusal => .ofInput (.spec refusal))
  return value

/-- The query that the command is given, if it is given one. -/
def query? (setting : Setting) : Action (Option Json) := do
  match ← readSource setting.environment setting.command.source false with
  | none => return none
  | some value => some <$> Attempt.ofExcept (Database.checkedQuery (Caller.ofJson value))

/-- The query that the command is given; without one, the query for all documents. -/
def query (setting : Setting) : Action Caller.Value := do
  let query ← setting.query?
  return Caller.ofJson (query.getD (.object []))

/-! ## Commands -/

/-- List the collections. -/
def listCollections (setting : Setting) : Action Unit := do
  let names ← setting.perform .listCollections
  if setting.command.has Verb.jsonOption then printJson false (.array (names.map Json.string))
  else printLines names

/-- Create the collection. -/
def createCollection (setting : Setting) : Action Unit := do
  if ← setting.perform (.createCollection setting.collectionValue) then
    setting.tell ("Created collection " ++ setting.collection)
  else setting.tell ("Collection " ++ setting.collection ++ " already exists")

/-- Drop the collection. -/
def dropCollection (setting : Setting) : Action Unit := do
  setting.confirmed ("Drop collection " ++ setting.collection ++ "?")
  if ← setting.perform (.dropCollection setting.collectionValue) then
    setting.tell ("Dropped collection " ++ setting.collection)
  else notFound ("Collection not found: " ++ setting.collection)

/-- Insert the document and print its identifier. -/
def insert (setting : Setting) : Action Unit := do
  let document ← setting.document
  printLine .output (← setting.perform (.insert setting.collectionValue document))

/-- Save the document and print its identifier. -/
def save (setting : Setting) : Action Unit := do
  let document ← setting.document
  printLine .output (← setting.perform (.save setting.collectionValue document))

/-- Print the document of the identifier. -/
def get (setting : Setting) : Action Unit := do
  match ← setting.perform (.findOneById setting.collectionValue setting.idValue) with
  | some document => setting.display document
  | none => notFound ("Document not found: " ++ setting.documentName)

/-- Print the documents that contain the query. -/
def find (setting : Setting) : Action Unit := do
  let query ← setting.query
  let documents ← setting.perform (.find setting.collectionValue query)
  setting.display (.array documents)

/-- Print the first document that contains the query. -/
def findOne (setting : Setting) : Action Unit := do
  let query ← setting.query
  match ← setting.perform (.findOne setting.collectionValue query) with
  | some document => setting.display document
  | none => notFound ("No document in " ++ setting.collection ++ " matches the query")

/-- Print how many documents contain the query. -/
def count (setting : Setting) : Action Unit := do
  let query ← setting.query
  let number ← setting.perform (.count setting.collectionValue query)
  printLine .output (toString number)

/-- The question before documents are removed that contain a query. -/
def removalQuestion (setting : Setting) (query : Json) : String :=
  let which :=
    if setting.command.has Verb.oneOption then "the first document" else "all documents"
  "Remove " ++ which ++ " in " ++ setting.collection ++ " matching " ++ Json.line query ++ "?"

/-- Remove the documents that contain the query. -/
def remove (setting : Setting) : Action Unit := do
  match ← setting.query? with
  | none => Attempt.fail (.invalidArgument "A query is required: use --data or --file")
  | some query => do
      setting.confirmed (setting.removalQuestion query)
      let number ←
        if setting.command.has Verb.oneOption then
          setting.perform (.removeOne setting.collectionValue (Caller.ofJson query))
        else setting.perform (.remove setting.collectionValue (Caller.ofJson query))
      setting.tell
        ("Removed " ++ toString number ++ " document(s) from " ++ setting.collection)

/-- Remove the document of the identifier. -/
def removeById (setting : Setting) : Action Unit := do
  setting.confirmed ("Remove " ++ setting.documentName ++ "?")
  let number ← setting.perform (.removeOneById setting.collectionValue setting.idValue)
  if number = 0 then notFound ("Document not found: " ++ setting.documentName)
  else setting.tell ("Removed " ++ setting.documentName)

/-- Add the constraints of the specification. -/
def addConstraints (setting : Setting) : Action Unit := do
  let spec ← setting.spec
  if ← setting.perform (.addConstraint setting.collectionValue spec) then
    setting.tell ("Added constraints to " ++ setting.collection)
  else setting.tell ("Constraints on " ++ setting.collection ++ " unchanged")

/-- Remove the constraints of the specification. -/
def removeConstraints (setting : Setting) : Action Unit := do
  let spec ← setting.spec
  if ← setting.perform (.removeConstraint setting.collectionValue spec) then
    setting.tell ("Removed constraints from " ++ setting.collection)
  else setting.tell ("No matching constraints on " ++ setting.collection)

/-- List the constraints of the collection. -/
def listConstraints (setting : Setting) : Action Unit := do
  let constraints ← setting.perform (.listConstraints setting.collectionValue)
  if setting.command.has Verb.jsonOption then
    printJson false (.array (constraints.map Constraint.toJson))
  else printLines (constraints.map Constraint.name)

/-- What the command does. -/
def body (setting : Setting) : Action Unit :=
  match setting.command.verb with
  | .collections => setting.listCollections
  | .create => setting.createCollection
  | .drop => setting.dropCollection
  | .insert => setting.insert
  | .save => setting.save
  | .get => setting.get
  | .find => setting.find
  | .findOne => setting.findOne
  | .count => setting.count
  | .remove => setting.remove
  | .removeById => setting.removeById
  | .addConstraints => setting.addConstraints
  | .removeConstraints => setting.removeConstraints
  | .listConstraints => setting.listConstraints

/-- What a timing line says about the command. -/
def metricSubject (setting : Setting) : Caller.Value :=
  .object false
    (if setting.command.verb.operandNames.isEmpty then []
     else [("collection", setting.collectionValue)])

/-- Carry out the command, and print a timing line if such lines are printed. -/
def timed (setting : Setting) : Action Unit :=
  withTiming setting.environment setting.command.verb.metricName setting.metricSubject setting.body

/-- Carry out the command, report its failure if it fails, and give the exit code.  A process that
ends with a question open reports nothing. -/
def run (setting : Setting) : Action Nat := do
  match ← setting.timed.outcome with
  | .ok () => return 0
  | .error .unanswered => return Failure.unanswered.exitCode
  | .error failure => do
      printLine .errors ("Error: " ++ report failure none setting.common.verbose)
      return failure.exitCode

end Setting

/-! ## Command lines -/

/-- The line of a command in the overview of all commands. -/
def overviewLine (verb : Verb) : String :=
  let words := verb.group.toList ++ [verb.word]
  let operands := verb.operandNames.map fun name => "<" ++ name ++ ">"
  let options := (verb.options ++ commonOptions).map fun option => "[" ++ option.shown ++ "]"
  "  " ++ String.intercalate " " (words ++ operands ++ options)

/-- The overview of all commands. -/
def overview : String :=
  String.intercalate "\n" ("Commands:" :: Verb.all.map overviewLine)

/-- Say why a command line is not carried out as a command, and give the exit code. -/
def stop : Stop → Action Nat
  | .version => do
      printLine .output versionText
      return 0
  | .help true => do
      printLine .output overview
      return 0
  | .help false => do
      printLine .errors overview
      return 1
  | refusal => do
      printLine .errors refusal.message
      return 1

/-- Carry out a command line, and give the exit code. -/
def run (environment : Environment) (arguments : List String) : Action Nat :=
  match resolve arguments with
  | .ok (common, command) => Setting.run ⟨environment, common, command⟩
  | .error reason => stop reason

end DocStore.CommandLine
