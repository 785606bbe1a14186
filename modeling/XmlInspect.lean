import XmlInspect.Analysis.Analyzer
import XmlInspect.Analysis.Batch
import XmlInspect.Analysis.Input
import XmlInspect.Charset.Basic
import XmlInspect.Charset.CodePage
import XmlInspect.Charset.EastAsian
import XmlInspect.Charset.Label
import XmlInspect.Charset.ShiftJis
import XmlInspect.Charset.Sniff
import XmlInspect.Charset.Utf16
import XmlInspect.Charset.Utf8
import XmlInspect.Check.Basic
import XmlInspect.Check.Comment
import XmlInspect.Check.Indentation
import XmlInspect.Check.Layout
import XmlInspect.Check.Newline
import XmlInspect.Check.Path
import XmlInspect.Check.Registry
import XmlInspect.Command.Arguments
import XmlInspect.Command.FileTree
import XmlInspect.Command.Run
import XmlInspect.Config.Data
import XmlInspect.Config.Params
import XmlInspect.Config.Toml
import XmlInspect.Document
import XmlInspect.Error
import XmlInspect.File
import XmlInspect.Issue
import XmlInspect.Main
import XmlInspect.Markup.Attribute
import XmlInspect.Markup.Entity
import XmlInspect.Markup.Fault
import XmlInspect.Markup.Namespace
import XmlInspect.Markup.Piece
import XmlInspect.Markup.QName
import XmlInspect.Markup.Reference
import XmlInspect.Number.Binary
import XmlInspect.Number.Decimal
import XmlInspect.Number.Shortest
import XmlInspect.Pattern.Basic
import XmlInspect.Pattern.CharClass
import XmlInspect.Pattern.Depth
import XmlInspect.Pattern.Engine
import XmlInspect.Pattern.Item
import XmlInspect.Pattern.Parse
import XmlInspect.Pattern.Read
import XmlInspect.Pattern.Shape
import XmlInspect.Pattern.Size
import XmlInspect.Pattern.Table
import XmlInspect.Proofs.Acceptance
import XmlInspect.Proofs.Accounting
import XmlInspect.Proofs.Agreement
import XmlInspect.Proofs.Comparisons
import XmlInspect.Proofs.Complete
import XmlInspect.Proofs.Contiguous
import XmlInspect.Proofs.Coordinates
import XmlInspect.Proofs.Doctype
import XmlInspect.Proofs.DocumentOrder
import XmlInspect.Proofs.Encoding
import XmlInspect.Proofs.Faithful
import XmlInspect.Proofs.Grammar
import XmlInspect.Proofs.Growth
import XmlInspect.Proofs.IndentedTags
import XmlInspect.Proofs.Independence
import XmlInspect.Proofs.LineStarts
import XmlInspect.Proofs.Located
import XmlInspect.Proofs.Lockstep
import XmlInspect.Proofs.Lookahead
import XmlInspect.Proofs.MeasuredTags
import XmlInspect.Proofs.NamespaceFree
import XmlInspect.Proofs.NodeSets
import XmlInspect.Proofs.Oblivious
import XmlInspect.Proofs.Pool
import XmlInspect.Proofs.Preamble
import XmlInspect.Proofs.Progress
import XmlInspect.Proofs.Qualifiers
import XmlInspect.Proofs.Replay
import XmlInspect.Proofs.RoundTrip
import XmlInspect.Proofs.Scannable
import XmlInspect.Proofs.Schedules
import XmlInspect.Proofs.Scopes
import XmlInspect.Proofs.Shown
import XmlInspect.Proofs.Slice
import XmlInspect.Proofs.Slots
import XmlInspect.Proofs.Sniffing
import XmlInspect.Proofs.Solid
import XmlInspect.Proofs.TagOrder
import XmlInspect.Proofs.Tiling
import XmlInspect.Proofs.Tokens
import XmlInspect.Proofs.Transcoding
import XmlInspect.Proofs.Walks
import XmlInspect.Proofs.WellFormed
import XmlInspect.Proofs.WrittenTags
import XmlInspect.Proofs.WrittenTree
import XmlInspect.Query.Along
import XmlInspect.Query.Basic
import XmlInspect.Query.Eval
import XmlInspect.Query.Fault
import XmlInspect.Query.Function
import XmlInspect.Query.Lex
import XmlInspect.Query.Node
import XmlInspect.Query.Parse
import XmlInspect.Query.Syntax
import XmlInspect.Query.Token
import XmlInspect.Query.Value
import XmlInspect.Report.Basic
import XmlInspect.Report.Element
import XmlInspect.Source
import XmlInspect.Span.Bind
import XmlInspect.Span.Mismatch
import XmlInspect.Span.Ranges
import XmlInspect.Span.Scan
import XmlInspect.Span.Token
import XmlInspect.Text.Blank
import XmlInspect.Text.ByteRow
import XmlInspect.Text.CaseFold
import XmlInspect.Text.Find
import XmlInspect.Text.Letter
import XmlInspect.Text.Lines
import XmlInspect.Text.Locator
import XmlInspect.Text.Position
import XmlInspect.Text.Printable
import XmlInspect.Text.Quoted
import XmlInspect.Text.RangeAlgebra
import XmlInspect.Text.RangeTable
import XmlInspect.Text.WordChar
import XmlInspect.Tree.Basic
import XmlInspect.Tree.Build
import XmlInspect.Tree.Mixed
import XmlInspect.Tree.Navigate
import XmlInspect.Tree.Qualifier
import XmlInspect.Tree.Walk
import XmlInspect.Proofs.Boundaries
import XmlInspect.Proofs.Declaration
import XmlInspect.Proofs.PseudoAttributes
import XmlInspect.Proofs.FaultLines
import XmlInspect.Proofs.Axes
import XmlInspect.Proofs.Paths
import XmlInspect.Proofs.TwoSlashes
import XmlInspect.Proofs.Spacing
import XmlInspect.Proofs.CrowdedLines
import XmlInspect.Proofs.TabRuns
import XmlInspect.Proofs.Setup
import XmlInspect.Proofs.Lookups
import XmlInspect.Proofs.Scanning
import XmlInspect.Proofs.LineReadings
