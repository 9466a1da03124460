import Tablewright.Calendar.Date
import Tablewright.Calendar.Timestamp
import Tablewright.CommandLine.Arguments
import Tablewright.CommandLine.Directory
import Tablewright.CommandLine.Run
import Tablewright.Connections.Pool
import Tablewright.Connections.Retry
import Tablewright.Decoder
import Tablewright.Diagnostics.Failure
import Tablewright.Diagnostics.Journal
import Tablewright.Diagnostics.Log
import Tablewright.Diagnostics.Message
import Tablewright.Diagnostics.Problem
import Tablewright.Entries
import Tablewright.Filter.Clause
import Tablewright.Filter.Compile
import Tablewright.Filter.Condition
import Tablewright.Filter.Like
import Tablewright.Filter.Operator
import Tablewright.Filter.Request
import Tablewright.Handle.Connection
import Tablewright.Handle.Device
import Tablewright.Handle.Placeholder
import Tablewright.Handle.Script
import Tablewright.Handle.Scripted
import Tablewright.Handle.Transaction
import Tablewright.Json.Reader
import Tablewright.Json.Token
import Tablewright.Json.Writer
import Tablewright.Link.Basic
import Tablewright.Link.Payload
import Tablewright.Link.Reading
import Tablewright.Link.Writing
import Tablewright.Logging.Configuration
import Tablewright.Logging.JsonLine
import Tablewright.Logging.Severity
import Tablewright.Logging.Template
import Tablewright.Main
import Tablewright.Mapping.Basic
import Tablewright.Mapping.Batch
import Tablewright.Mapping.ByClause
import Tablewright.Mapping.ByKey
import Tablewright.Mapping.Marshal
import Tablewright.Number.Binary
import Tablewright.Number.Decimal
import Tablewright.Number.Integer
import Tablewright.Number.NonFinite
import Tablewright.Pattern.Basic
import Tablewright.Pattern.Matching
import Tablewright.Pattern.Reader
import Tablewright.Proofs.Asking
import Tablewright.Proofs.Check
import Tablewright.Proofs.Filter.Accepted
import Tablewright.Proofs.Filter.Meaning
import Tablewright.Proofs.Filter.Pattern
import Tablewright.Proofs.Filter.Resolution
import Tablewright.Proofs.Filter.Shape
import Tablewright.Proofs.Hearing
import Tablewright.Proofs.Idle
import Tablewright.Proofs.Link.Added
import Tablewright.Proofs.Link.Bounds
import Tablewright.Proofs.Link.Cascade
import Tablewright.Proofs.Link.Children
import Tablewright.Proofs.Link.Copying
import Tablewright.Proofs.Link.Forest
import Tablewright.Proofs.Link.Joining
import Tablewright.Proofs.Link.Placed
import Tablewright.Proofs.Link.Queries
import Tablewright.Proofs.Link.ReadBack
import Tablewright.Proofs.Link.Saved
import Tablewright.Proofs.Link.Trees
import Tablewright.Proofs.Link.Untouched
import Tablewright.Proofs.Mapping.Heard
import Tablewright.Proofs.Mapping.Marks
import Tablewright.Proofs.Mapping.Marshal
import Tablewright.Proofs.Mapping.Places
import Tablewright.Proofs.Mapping.Unsupported
import Tablewright.Proofs.Number.Decimal
import Tablewright.Proofs.Schema.Classification
import Tablewright.Proofs.Schema.Valid
import Tablewright.Proofs.Schema.ValueType
import Tablewright.Proofs.Sql.Evaluation
import Tablewright.Proofs.Sql.Query
import Tablewright.Proofs.Sql.RoundTrip
import Tablewright.Proofs.Sql.Token
import Tablewright.Proofs.Store.Added
import Tablewright.Proofs.Store.Invariant
import Tablewright.Proofs.Store.Isolation
import Tablewright.Proofs.Store.LostUpdates
import Tablewright.Proofs.Store.Operations
import Tablewright.Proofs.Store.Placement
import Tablewright.Proofs.Store.ReadBack
import Tablewright.Proofs.Store.Reference
import Tablewright.Proofs.Store.Rows
import Tablewright.Proofs.Store.Saving
import Tablewright.Proofs.Store.Shown
import Tablewright.Proofs.Store.Stamps
import Tablewright.Proofs.Store.Taken
import Tablewright.Proofs.Store.Tenancy
import Tablewright.Proofs.Store.Versions
import Tablewright.Proofs.Store.Written
import Tablewright.Proofs.Value.Order
import Tablewright.Proofs.Value.Same
import Tablewright.Proofs.Work
import Tablewright.Registry
import Tablewright.Report
import Tablewright.Report.Layout
import Tablewright.Schema.Build
import Tablewright.Schema.Declaration
import Tablewright.Schema.Field
import Tablewright.Schema.Input
import Tablewright.Schema.Record
import Tablewright.Schema.Role
import Tablewright.Schema.ValueList
import Tablewright.Schema.ValueSchema
import Tablewright.Schema.ValueType
import Tablewright.Session
import Tablewright.Settings
import Tablewright.Statement
import Tablewright.Store.Basic
import Tablewright.Store.Handle
import Tablewright.Store.Reading
import Tablewright.Text.Blank
import Tablewright.Text.Case
import Tablewright.Text.Digit
import Tablewright.Text.Identifier
import Tablewright.Text.Printable
import Tablewright.Text.Quoted
import Tablewright.Text.Word
import Tablewright.Value.Access
import Tablewright.Value.Basic
import Tablewright.Value.Display
import Tablewright.Value.Same
import Tablewright.Work.Call
import Tablewright.Work.Task
import Tablewright.Work.Workspace
import Tablewright.Proofs.Link.Unsupported
import Tablewright.Proofs.Overhearing
import Tablewright.Proofs.Link.Calls
import Tablewright.Proofs.Link.Binding
import Tablewright.Proofs.Link.Tenants
import Tablewright.Proofs.Schema.Keys
import Tablewright.Proofs.Link.Deleting
import Tablewright.Proofs.Link.Orphans
import Tablewright.Proofs.Ending
import Tablewright.Proofs.Schema.Building
import Tablewright.Proofs.Sql.Sentence
import Tablewright.Proofs.Mapping.Sentences
import Tablewright.Proofs.Registry.Keeping
import Tablewright.Proofs.Number.Rounding
import Tablewright.Proofs.Filter.Problems
import Tablewright.Proofs.Mapping.Positions
import Tablewright.Proofs.Schema.Protected
import Tablewright.Proofs.Link.Protected
import Tablewright.Proofs.Interleaving
import Tablewright.Proofs.Judging
import Tablewright.Proofs.Schema.Accumulation
import Tablewright.Proofs.Link.Accumulation
import Tablewright.Proofs.Store.ConcurrentSaves
import Tablewright.Proofs.Filter.Escaping
import Tablewright.Proofs.Filter.Disclosure
import Tablewright.Proofs.Handle.Placeholder
import Tablewright.Proofs.Registry.Registered
import Tablewright.Proofs.Registry.Unfolding
import Tablewright.Proofs.Filter.Accounting
import Tablewright.Proofs.Value.Display
import Tablewright.Proofs.Schema.Entry
import Tablewright.Proofs.Schema.Reporting
import Tablewright.Proofs.Schema.NormalForm
import Tablewright.Proofs.Schema.Obeying
import Tablewright.Proofs.Schema.Rereading
import Tablewright.Proofs.Link.KeyedLists
import Tablewright.Proofs.Leading
import Tablewright.Proofs.Mapping.Inserting
import Tablewright.Proofs.Mapping.Batched
import Tablewright.Proofs.Number.Nearest
import Tablewright.Proofs.Number.Numeral
import Tablewright.Proofs.Schema.IntegerText
import Tablewright.Proofs.Number.Printed
import Tablewright.Proofs.Calendar.Date
import Tablewright.Proofs.Calendar.Timestamp
import Tablewright.Proofs.Schema.Display
import Tablewright.Proofs.Filter.Projection
import Tablewright.Proofs.Mapping.Frame
import Tablewright.Proofs.Schema.KeysAgree
import Tablewright.Proofs.Handle.Conversion
