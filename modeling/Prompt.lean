import Prompt.CommandLine.Arguments
import Prompt.CommandLine.Environment
import Prompt.CommandLine.Execute
import Prompt.Decimal.Binary
import Prompt.Decimal.Order
import Prompt.Decimal.Scale
import Prompt.Decimal.Shortest
import Prompt.Document.Markdown
import Prompt.Entries
import Prompt.Json.Basic
import Prompt.Json.Decode
import Prompt.Json.Display
import Prompt.Json.Reader
import Prompt.Json.Schema
import Prompt.Json.Writer
import Prompt.Main
import Prompt.Proofs.Decimal.Comparison
import Prompt.Proofs.Decimal.Digits
import Prompt.Proofs.Decimal.Finite
import Prompt.Proofs.Decimal.Nearest
import Prompt.Proofs.Decimal.Scaling
import Prompt.Proofs.Decimal.TotalOrder
import Prompt.Proofs.Document.Rendered
import Prompt.Proofs.Json.Conforms
import Prompt.Proofs.Json.Held
import Prompt.Proofs.Json.Numbers
import Prompt.Proofs.Json.RoundTrip
import Prompt.Proofs.Order.Acyclic
import Prompt.Proofs.Order.Between
import Prompt.Proofs.Order.Peeling
import Prompt.Proofs.Order.Precedence
import Prompt.Proofs.Order.Rearranged
import Prompt.Proofs.Order.Stability
import Prompt.Proofs.Order.Walk
import Prompt.Proofs.Repeats
import Prompt.Proofs.Run.Agreement
import Prompt.Proofs.Run.ConfigFile
import Prompt.Proofs.Run.Confluence
import Prompt.Proofs.Run.Decision
import Prompt.Proofs.Run.Defaults
import Prompt.Proofs.Run.Delivery
import Prompt.Proofs.Run.Derived
import Prompt.Proofs.Run.Document
import Prompt.Proofs.Run.Events
import Prompt.Proofs.Run.Finished
import Prompt.Proofs.Run.FirstCall
import Prompt.Proofs.Run.Grouping
import Prompt.Proofs.Run.Guidance
import Prompt.Proofs.Run.History
import Prompt.Proofs.Run.Loop
import Prompt.Proofs.Run.Memories
import Prompt.Proofs.Run.Presence
import Prompt.Proofs.Run.Registered
import Prompt.Proofs.Run.Sharing
import Prompt.Proofs.Section.Accepted
import Prompt.Proofs.Section.Built
import Prompt.Proofs.Section.Findings
import Prompt.Proofs.Section.Reread
import Prompt.Proofs.Section.RoundTrip
import Prompt.Proofs.Section.Valid
import Prompt.Proofs.Sorting
import Prompt.Proofs.Table
import Prompt.Proofs.Template.Account
import Prompt.Proofs.Template.Choice
import Prompt.Proofs.Template.Cleaning
import Prompt.Proofs.Template.Covered
import Prompt.Proofs.Template.Cursor
import Prompt.Proofs.Template.Framed
import Prompt.Proofs.Template.Grammar
import Prompt.Proofs.Template.Innermost
import Prompt.Proofs.Template.Lookup
import Prompt.Proofs.Template.Lossless
import Prompt.Proofs.Template.Markup
import Prompt.Proofs.Template.Meaning
import Prompt.Proofs.Template.Normal
import Prompt.Proofs.Template.Pairing
import Prompt.Proofs.Template.Passes
import Prompt.Proofs.Template.Plain
import Prompt.Proofs.Template.Scalar
import Prompt.Proofs.Template.Scan
import Prompt.Proofs.Template.Unnamed
import Prompt.Proofs.Text.Slice
import Prompt.Proofs.Transform.Alias
import Prompt.Proofs.Transform.Category
import Prompt.Proofs.Transform.Latest
import Prompt.Proofs.Transform.Memory
import Prompt.Proofs.Transform.Percent
import Prompt.Proofs.Transform.Plan
import Prompt.Proofs.Transform.Progress
import Prompt.Proofs.Transform.Reads
import Prompt.Proofs.Transform.Subject
import Prompt.Proofs.Transform.Surest
import Prompt.Proofs.Transform.Target
import Prompt.Proofs.Transform.Voice
import Prompt.Run.Activation
import Prompt.Run.Compose
import Prompt.Run.Config
import Prompt.Run.Context
import Prompt.Run.Load
import Prompt.Run.Loaded
import Prompt.Section.Basic
import Prompt.Section.Check
import Prompt.Section.Codec
import Prompt.Section.Cycle
import Prompt.Section.Default
import Prompt.Section.Order
import Prompt.Section.Schema
import Prompt.Template.Block
import Prompt.Template.Catalogue
import Prompt.Template.Check
import Prompt.Template.Compile
import Prompt.Template.Directive
import Prompt.Template.Tag
import Prompt.Text.Blank
import Prompt.Text.Case
import Prompt.Text.CaseTable
import Prompt.Text.HiddenTable
import Prompt.Text.Measure
import Prompt.Text.Quoted
import Prompt.Transform.Builtin
import Prompt.Transform.Caller
import Prompt.Transform.Curriculum
import Prompt.Transform.Fields
import Prompt.Transform.Memory
import Prompt.Transform.Plan
import Prompt.Transform.Registry
import Prompt.Transform.Spec
import Prompt.Transform.Target
