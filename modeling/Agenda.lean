import Agenda.Calendar.Date
import Agenda.Calendar.DayPhrase
import Agenda.Calendar.Timestamp
import Agenda.Calendar.Weekday
import Agenda.Canonical
import Agenda.Command.Basic
import Agenda.Command.Parser
import Agenda.Command.Stop
import Agenda.Completion
import Agenda.Config
import Agenda.Console
import Agenda.Console.Folder
import Agenda.Console.Typed
import Agenda.Diagnostic
import Agenda.Dictionary
import Agenda.Error
import Agenda.Field
import Agenda.Filter.Basic
import Agenda.Filter.Outcome
import Agenda.Filter.Parser
import Agenda.Filter.Stop
import Agenda.Intent
import Agenda.Json.Lexeme
import Agenda.Json.Source
import Agenda.Json.Value
import Agenda.Lexer
import Agenda.Lexer.Rule
import Agenda.Main
import Agenda.Op.Basic
import Agenda.Op.Parser
import Agenda.Op.Stop
import Agenda.Palette
import Agenda.ParseError
import Agenda.Plan
import Agenda.Plan.CompileError
import Agenda.Plan.Create
import Agenda.Plan.Encoding
import Agenda.Plan.Entry
import Agenda.Plan.Item
import Agenda.Plan.Listing
import Agenda.Plan.Request
import Agenda.Plan.TaskState
import Agenda.Plan.Update
import Agenda.Position
import Agenda.Proofs.Calendar.Absolute
import Agenda.Proofs.Calendar.Phrase
import Agenda.Proofs.Calendar.Relative
import Agenda.Proofs.Calendar.Succession
import Agenda.Proofs.Calendar.Written
import Agenda.Proofs.Canonical.Command
import Agenda.Proofs.Canonical.Filter
import Agenda.Proofs.Canonical.Fragment
import Agenda.Proofs.Canonical.Line
import Agenda.Proofs.Canonical.Meaning
import Agenda.Proofs.Canonical.Op
import Agenda.Proofs.Canonical.Readable
import Agenda.Proofs.Canonical.RoundTrip
import Agenda.Proofs.Canonical.Run
import Agenda.Proofs.Canonical.Value
import Agenda.Proofs.Command.Acceptance
import Agenda.Proofs.Command.Alike
import Agenda.Proofs.Command.Cursor
import Agenda.Proofs.Command.Grammar
import Agenda.Proofs.Command.Partition
import Agenda.Proofs.Command.Places
import Agenda.Proofs.Command.Reading
import Agenda.Proofs.Command.Verb
import Agenda.Proofs.Completion
import Agenda.Proofs.Diagnostic.Part
import Agenda.Proofs.Diagnostic.Shown
import Agenda.Proofs.Dictionary
import Agenda.Proofs.Field
import Agenda.Proofs.Filter.Acceptance
import Agenda.Proofs.Filter.Grammar
import Agenda.Proofs.Lexer.Boundary
import Agenda.Proofs.Lexer.Cut
import Agenda.Proofs.Lexer.Cuts
import Agenda.Proofs.Lexer.Ends
import Agenda.Proofs.Lexer.Lookahead
import Agenda.Proofs.Lexer.Named
import Agenda.Proofs.Lexer.Rules
import Agenda.Proofs.Lexer.Shape
import Agenda.Proofs.Lexer.Tiling
import Agenda.Proofs.Listing.Again
import Agenda.Proofs.Listing.Columns
import Agenda.Proofs.Op.Extent
import Agenda.Proofs.Op.Grammar
import Agenda.Proofs.Plan.Change
import Agenda.Proofs.Plan.Collect
import Agenda.Proofs.Plan.Consistent
import Agenda.Proofs.Plan.Create
import Agenda.Proofs.Plan.Effect
import Agenda.Proofs.Plan.Emptiness
import Agenda.Proofs.Plan.Entry
import Agenda.Proofs.Plan.Fault
import Agenda.Proofs.Plan.Item
import Agenda.Proofs.Plan.Rejection
import Agenda.Proofs.Plan.Reorder
import Agenda.Proofs.Reading
import Agenda.Proofs.Shell.Script
import Agenda.Proofs.Span
import Agenda.Proofs.Sql.Complement
import Agenda.Proofs.Sql.Conjunction
import Agenda.Proofs.Sql.Folding
import Agenda.Proofs.Sql.Report
import Agenda.Proofs.Sql.TaskNumber
import Agenda.Proofs.Text.Line
import Agenda.Proofs.Text.Trim
import Agenda.Proofs.Text.Words
import Agenda.Proofs.ValueRun
import Agenda.Reading
import Agenda.Shell
import Agenda.Sql.Condition
import Agenda.Sql.Query
import Agenda.Sql.Render
import Agenda.Text.Basic
import Agenda.Text.Blank
import Agenda.Text.Byte
import Agenda.Text.Cluster
import Agenda.Text.ClusterClass
import Agenda.Text.Letter
import Agenda.Text.Line
import Agenda.Text.Lowercase
import Agenda.Text.Number
import Agenda.Text.Numeral
import Agenda.Text.Quoted
import Agenda.Text.Range
import Agenda.Token
import Agenda.ValueRun
import Agenda.Proofs.Palette
import Agenda.Proofs.Sql.Pattern
import Agenda.Proofs.Lexer.OpenString
import Agenda.Proofs.Lexer.Joined
import Agenda.Proofs.Lexer.Beginning
import Agenda.Proofs.Lexer.Seam
