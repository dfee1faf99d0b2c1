import DocStore.Attempt
import DocStore.Calendar
import DocStore.Caller.Containment
import DocStore.Caller.Key
import DocStore.Caller.Normal
import DocStore.Caller.Numeric
import DocStore.Caller.Plain
import DocStore.Caller.Text
import DocStore.Caller.Value
import DocStore.Caller.View
import DocStore.Collection.Name
import DocStore.CommandLine.Arguments
import DocStore.CommandLine.Commands
import DocStore.CommandLine.Environment
import DocStore.CommandLine.Input
import DocStore.CommandLine.Output
import DocStore.CommandLine.Run
import DocStore.CommandLine.Suggestion
import DocStore.Constraint.Basic
import DocStore.Constraint.Check
import DocStore.Constraint.Record
import DocStore.Constraint.Spec
import DocStore.Database.Batch
import DocStore.Database.Constraints
import DocStore.Database.Cursor
import DocStore.Database.Documents
import DocStore.Database.Interface
import DocStore.Database.Operation
import DocStore.Database.Session
import DocStore.Database.Temporary
import DocStore.Digest.Sha256
import DocStore.Disk.Call
import DocStore.Disk.Errno
import DocStore.Disk.Lookup
import DocStore.Disk.Path
import DocStore.Disk.Tree
import DocStore.Error.Description
import DocStore.Error.Failure
import DocStore.Error.Fault
import DocStore.Error.Made
import DocStore.Files.Atomic
import DocStore.Files.Key
import DocStore.Files.Store
import DocStore.Files.Values
import DocStore.Host.Interface
import DocStore.Host.Loop
import DocStore.Host.Machine
import DocStore.Host.Native
import DocStore.Host.Pool
import DocStore.Identifier
import DocStore.Json.Canonical
import DocStore.Json.Display
import DocStore.Json.Fields
import DocStore.Json.Numeral
import DocStore.Json.Pointer
import DocStore.Json.Printer
import DocStore.Json.Quoted
import DocStore.Json.Reader
import DocStore.Json.Tree
import DocStore.Lock.File
import DocStore.Lock.Mutex
import DocStore.Lock.Tails
import DocStore.Lock.Turns
import DocStore.Log
import DocStore.Log.Entry
import DocStore.Main
import DocStore.Number.Basic
import DocStore.Number.Decimal
import DocStore.Number.Text
import DocStore.Program
import DocStore.Proofs.Asking
import DocStore.Proofs.Caller.Containment
import DocStore.Proofs.Caller.Conversion
import DocStore.Proofs.Caller.Normal
import DocStore.Proofs.Caller.Plain
import DocStore.Proofs.Caller.Positions
import DocStore.Proofs.CommandLine.Exit
import DocStore.Proofs.CommandLine.Input
import DocStore.Proofs.CommandLine.Roots
import DocStore.Proofs.Constraint.Settled
import DocStore.Proofs.Database.Alone
import DocStore.Proofs.Database.Backends
import DocStore.Proofs.Database.ById
import DocStore.Proofs.Database.Concurrent
import DocStore.Proofs.Database.Constraining
import DocStore.Proofs.Database.FieldTypes
import DocStore.Proofs.Database.Frame
import DocStore.Proofs.Database.Guarded
import DocStore.Proofs.Database.Housed
import DocStore.Proofs.Database.Identifiers
import DocStore.Proofs.Database.Interruptions
import DocStore.Proofs.Database.Iterations
import DocStore.Proofs.Database.Jobs
import DocStore.Proofs.Database.Lasting
import DocStore.Proofs.Database.Protocol
import DocStore.Proofs.Database.Refusals
import DocStore.Proofs.Database.Scanning
import DocStore.Proofs.Database.Selection
import DocStore.Proofs.Database.Serial
import DocStore.Proofs.Database.Slots
import DocStore.Proofs.Database.Tree
import DocStore.Proofs.Database.Writers
import DocStore.Proofs.Database.Writes
import DocStore.Proofs.Disk.FileAt
import DocStore.Proofs.Disk.Order
import DocStore.Proofs.Files.Collections
import DocStore.Proofs.Files.Contended
import DocStore.Proofs.Files.Creating
import DocStore.Proofs.Files.Creations
import DocStore.Proofs.Files.Glimpses
import DocStore.Proofs.Files.Healthy
import DocStore.Proofs.Files.Keys
import DocStore.Proofs.Files.Leavings
import DocStore.Proofs.Files.Listed
import DocStore.Proofs.Files.Records
import DocStore.Proofs.Files.Removal
import DocStore.Proofs.Files.Requests
import DocStore.Proofs.Files.Scans
import DocStore.Proofs.Host.Along
import DocStore.Proofs.Host.Faults
import DocStore.Proofs.Host.Steps
import DocStore.Proofs.Json.Canonical
import DocStore.Proofs.Json.Pointers
import DocStore.Proofs.Lock.Exclusion
import DocStore.Proofs.Lock.Heeding
import DocStore.Proofs.Lock.Tails
import DocStore.Proofs.Lock.Waiting
import DocStore.Proofs.Query.Embedding
import DocStore.Query.Containment
import DocStore.Sorting
import DocStore.Storage.Content
import DocStore.Storage.Memory
import DocStore.Storage.Op
import DocStore.Text.Blank
import DocStore.Text.Capital
import DocStore.Text.Literal
import DocStore.Text.Units
