import CueRouter.Binary.Arithmetic
import CueRouter.Binary.Double
import CueRouter.Binary.Format
import CueRouter.Binary.Rounding
import CueRouter.Binary.Single
import CueRouter.Binding.Basic
import CueRouter.Binding.Clause
import CueRouter.Binding.Compile
import CueRouter.Binding.Declaration
import CueRouter.Binding.Table
import CueRouter.Decimal.Fixed
import CueRouter.Decimal.PowerOfTen
import CueRouter.Decimal.Shortest
import CueRouter.Dispatch.Control
import CueRouter.Dispatch.Route
import CueRouter.Dispatch.State
import CueRouter.Document.Basic
import CueRouter.Document.Interface
import CueRouter.Document.Scalar
import CueRouter.Document.Settings
import CueRouter.Engine.Setup
import CueRouter.Event.Basic
import CueRouter.Event.ByType
import CueRouter.Event.Catalog
import CueRouter.Event.Pool
import CueRouter.Event.Schema
import CueRouter.Event.Type
import CueRouter.Expression.Basic
import CueRouter.Expression.Parser
import CueRouter.Expression.Token
import CueRouter.Fader
import CueRouter.Fault
import CueRouter.Interface
import CueRouter.Journal
import CueRouter.Json.Basic
import CueRouter.Json.Escape
import CueRouter.Json.Lexeme
import CueRouter.Json.Parser
import CueRouter.Json.Printer
import CueRouter.Key.List
import CueRouter.Key.Names
import CueRouter.Midi.Event
import CueRouter.Midi.Message
import CueRouter.Settings
import CueRouter.Text.Blank
import CueRouter.Text.Hexadecimal
import CueRouter.Text.Numeral
import CueRouter.Text.Split
import CueRouter.Value.Agreement
import CueRouter.Value.Basic
import CueRouter.Value.Convert
import CueRouter.Value.Kind
import CueRouter.Value.Literal
import CueRouter.Value.Operator
import CueRouter.Value.Printer
import CueRouter.Value.Span
import CueRouter.Variable.Cell
import CueRouter.Variable.Store
import CueRouter.Variable.Word
import CueRouter.Proofs.Binary.Exact
import CueRouter.Proofs.Binary.Value
import CueRouter.Proofs.Binary.Widening
import CueRouter.Proofs.Binding.Answer
import CueRouter.Proofs.Binding.Bucket
import CueRouter.Proofs.Binding.Building
import CueRouter.Proofs.Binding.Clause
import CueRouter.Proofs.Binding.Compilation
import CueRouter.Proofs.Binding.Contents
import CueRouter.Proofs.Binding.Copying
import CueRouter.Proofs.Binding.Editing
import CueRouter.Proofs.Binding.Folding
import CueRouter.Proofs.Binding.Hashing
import CueRouter.Proofs.Binding.Independence
import CueRouter.Proofs.Binding.Installation
import CueRouter.Proofs.Binding.Joining
import CueRouter.Proofs.Binding.Lookup
import CueRouter.Proofs.Binding.Mapping
import CueRouter.Proofs.Binding.Numbering
import CueRouter.Proofs.Binding.Pruning
import CueRouter.Proofs.Binding.Reordering
import CueRouter.Proofs.Binding.Spreading
import CueRouter.Proofs.Binding.Typing
import CueRouter.Proofs.Dispatch.Announcing
import CueRouter.Proofs.Dispatch.Atomicity
import CueRouter.Proofs.Dispatch.Balance
import CueRouter.Proofs.Dispatch.Broadcast
import CueRouter.Proofs.Dispatch.Change
import CueRouter.Proofs.Dispatch.Controlled
import CueRouter.Proofs.Dispatch.Course
import CueRouter.Proofs.Dispatch.Frame
import CueRouter.Proofs.Dispatch.Handled
import CueRouter.Proofs.Dispatch.Handling
import CueRouter.Proofs.Dispatch.Leaping
import CueRouter.Proofs.Dispatch.Moment
import CueRouter.Proofs.Dispatch.Nesting
import CueRouter.Proofs.Dispatch.Recursion
import CueRouter.Proofs.Dispatch.Run
import CueRouter.Proofs.Dispatch.Splitting
import CueRouter.Proofs.Dispatch.Stretch
import CueRouter.Proofs.Dispatch.Toggling
import CueRouter.Proofs.Dispatch.Trace
import CueRouter.Proofs.Dispatch.Transparency
import CueRouter.Proofs.Document.Rereading
import CueRouter.Proofs.Engine.Announcing
import CueRouter.Proofs.Engine.Configuration
import CueRouter.Proofs.Engine.Installing
import CueRouter.Proofs.Engine.Recursion
import CueRouter.Proofs.Engine.Steps
import CueRouter.Proofs.Engine.Thru
import CueRouter.Proofs.Engine.Transpose
import CueRouter.Proofs.Engine.Typing
import CueRouter.Proofs.Event.Lawful
import CueRouter.Proofs.Event.Ledger
import CueRouter.Proofs.Event.Lending
import CueRouter.Proofs.Expression.Exactness
import CueRouter.Proofs.Expression.Reading
import CueRouter.Proofs.Expression.Recall
import CueRouter.Proofs.Expression.Validity
import CueRouter.Proofs.Journal.Growth
import CueRouter.Proofs.Json.Rereading
import CueRouter.Proofs.Key.Listing
import CueRouter.Proofs.Key.Rereading
import CueRouter.Proofs.Midi.Thru
import CueRouter.Proofs.Text.Lookup
import CueRouter.Proofs.Text.Numeral
import CueRouter.Proofs.Text.Signed
import CueRouter.Proofs.Text.Split
import CueRouter.Proofs.Text.Trim
import CueRouter.Proofs.Value.Agreement
import CueRouter.Proofs.Value.Arithmetic
import CueRouter.Proofs.Value.Ends
import CueRouter.Proofs.Value.Literal
import CueRouter.Proofs.Value.Narrowing
import CueRouter.Proofs.Value.Number
import CueRouter.Proofs.Value.Operand
import CueRouter.Proofs.Value.Span
import CueRouter.Proofs.Variable.Directory
import CueRouter.Proofs.Variable.Naming
import CueRouter.Proofs.Variable.Outline
import CueRouter.Proofs.Variable.Retention
import CueRouter.Proofs.Variable.Storing
import CueRouter.Proofs.Variable.Whole
import CueRouter.Proofs.Variable.Write
