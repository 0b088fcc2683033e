import CodeWriter.Benchmark.Arguments
import CodeWriter.Benchmark.Report
import CodeWriter.Buffer.Basic
import CodeWriter.Buffer.Joining
import CodeWriter.Buffer.Mark
import CodeWriter.Buffer.Surgery
import CodeWriter.Decimal.Fixed
import CodeWriter.Demo.Basic
import CodeWriter.Demo.Listing
import CodeWriter.Fault
import CodeWriter.Freshness.Path
import CodeWriter.Freshness.Registry
import CodeWriter.Freshness.Time
import CodeWriter.Layout.Indent
import CodeWriter.Layout.Options
import CodeWriter.Layout.Rendering
import CodeWriter.Layout.Spacing
import CodeWriter.Line.Basic
import CodeWriter.Line.Token
import CodeWriter.Main
import CodeWriter.Program.Basic
import CodeWriter.Program.Run
import CodeWriter.Program.Session
import CodeWriter.Program.Transcript
import CodeWriter.Proofs.Buffer.Beyond
import CodeWriter.Proofs.Buffer.Collecting
import CodeWriter.Proofs.Buffer.Cursor
import CodeWriter.Proofs.Buffer.Growth
import CodeWriter.Proofs.Buffer.Hoisting
import CodeWriter.Proofs.Buffer.Ink
import CodeWriter.Proofs.Buffer.Inserting
import CodeWriter.Proofs.Buffer.Joining
import CodeWriter.Proofs.Buffer.Nesting
import CodeWriter.Proofs.Buffer.Reading
import CodeWriter.Proofs.Buffer.Settings
import CodeWriter.Proofs.Buffer.Splicing
import CodeWriter.Proofs.Buffer.Tracking
import CodeWriter.Proofs.Buffer.Unattributed
import CodeWriter.Proofs.Buffer.Unbroken
import CodeWriter.Proofs.Buffer.Writing
import CodeWriter.Proofs.Freshness.Remembering
import CodeWriter.Proofs.Layout.Comments
import CodeWriter.Proofs.Layout.Content
import CodeWriter.Proofs.Layout.Continuing
import CodeWriter.Proofs.Layout.Counting
import CodeWriter.Proofs.Layout.Indentation
import CodeWriter.Proofs.Layout.Matching
import CodeWriter.Proofs.Layout.Nesting
import CodeWriter.Proofs.Layout.Spacing
import CodeWriter.Proofs.Layout.Sweeping
import CodeWriter.Proofs.Layout.Visible
import CodeWriter.Proofs.Program.Appending
import CodeWriter.Proofs.Program.Beyond
import CodeWriter.Proofs.Program.Bracing
import CodeWriter.Proofs.Program.Collecting
import CodeWriter.Proofs.Program.Comments
import CodeWriter.Proofs.Program.CurrentLine
import CodeWriter.Proofs.Program.Cursor
import CodeWriter.Proofs.Program.Emitting
import CodeWriter.Proofs.Program.Freshness
import CodeWriter.Proofs.Program.Hoisting
import CodeWriter.Proofs.Program.Inserting
import CodeWriter.Proofs.Program.Joining
import CodeWriter.Proofs.Program.Marking
import CodeWriter.Proofs.Program.Nesting
import CodeWriter.Proofs.Program.Observing
import CodeWriter.Proofs.Program.Reachable
import CodeWriter.Proofs.Program.Settings
import CodeWriter.Proofs.Program.Settling
import CodeWriter.Proofs.Program.Unattributed
import CodeWriter.Proofs.Program.Writing
import CodeWriter.Proofs.Source.Positions
import CodeWriter.Proofs.SourceMap.Agreement
import CodeWriter.Proofs.SourceMap.Codes
import CodeWriter.Proofs.SourceMap.Delimiting
import CodeWriter.Proofs.SourceMap.Drafting
import CodeWriter.Proofs.SourceMap.Exactness
import CodeWriter.Proofs.SourceMap.Fields
import CodeWriter.Proofs.SourceMap.Folding
import CodeWriter.Proofs.SourceMap.Grouping
import CodeWriter.Proofs.SourceMap.Meaning
import CodeWriter.Proofs.SourceMap.Numbering
import CodeWriter.Proofs.SourceMap.Reading
import CodeWriter.Proofs.SourceMap.Recording
import CodeWriter.Proofs.SourceMap.Registering
import CodeWriter.Proofs.SourceMap.Rewriting
import CodeWriter.Proofs.SourceMap.Scanning
import CodeWriter.Proofs.SourceMap.Separating
import CodeWriter.Proofs.SourceMap.Shortest
import CodeWriter.Proofs.SourceMap.Sites
import CodeWriter.Proofs.SourceMap.Targets
import CodeWriter.Proofs.SourceMap.Watching
import CodeWriter.Source.Basic
import CodeWriter.Source.Position
import CodeWriter.Source.Span
import CodeWriter.SourceMap.Building
import CodeWriter.SourceMap.Document
import CodeWriter.SourceMap.Mapping
import CodeWriter.SourceMap.SourceIndex
import CodeWriter.SourceMap.Vlq
import CodeWriter.Text.Basic
import CodeWriter.Text.Blank
import CodeWriter.Text.Integer
import CodeWriter.Text.Numeral
import CodeWriter.Text.Printable
import CodeWriter.Text.Quoted
import CodeWriter.Writer
