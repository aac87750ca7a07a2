import CircuitCompiler.Build.Analysis
import CircuitCompiler.Build.Board
import CircuitCompiler.Build.Cache
import CircuitCompiler.Build.CacheStore
import CircuitCompiler.Build.Chunk
import CircuitCompiler.Build.Emission
import CircuitCompiler.Build.Key
import CircuitCompiler.Build.PatternSort
import CircuitCompiler.Build.Pipeline
import CircuitCompiler.Build.Progress
import CircuitCompiler.Build.Source
import CircuitCompiler.Build.Timer
import CircuitCompiler.Catalog
import CircuitCompiler.Command.Error
import CircuitCompiler.Command.Option
import CircuitCompiler.Command.Release
import CircuitCompiler.Command.Run
import CircuitCompiler.Command.Session
import CircuitCompiler.Command.Settings
import CircuitCompiler.Command.Verb
import CircuitCompiler.Component.Basic
import CircuitCompiler.Component.Outline
import CircuitCompiler.Component.Parse
import CircuitCompiler.Component.Spans
import CircuitCompiler.Design.Basic
import CircuitCompiler.Design.Check
import CircuitCompiler.Design.Graph
import CircuitCompiler.Design.Parse
import CircuitCompiler.Diagnostic.Bag
import CircuitCompiler.Diagnostic.Basic
import CircuitCompiler.Diagnostic.Error
import CircuitCompiler.Diagnostic.Place
import CircuitCompiler.Diagnostic.Report
import CircuitCompiler.Diagnostic.Snippet
import CircuitCompiler.Expr.Basic
import CircuitCompiler.Expr.ListForm
import CircuitCompiler.Expr.Nodes
import CircuitCompiler.Expr.Parse
import CircuitCompiler.Expr.Arena
import CircuitCompiler.Expr.Fill
import CircuitCompiler.Facts.Schema
import CircuitCompiler.Facts.Tables
import CircuitCompiler.Facts.Verdict
import CircuitCompiler.FileTree
import CircuitCompiler.Language
import CircuitCompiler.Main
import CircuitCompiler.Notation.Constraint
import CircuitCompiler.Notation.Evaluate
import CircuitCompiler.Notation.Expr
import CircuitCompiler.Notation.Lexeme
import CircuitCompiler.Notation.Number
import CircuitCompiler.Notation.Parse
import CircuitCompiler.Notation.Pattern
import CircuitCompiler.Notation.Quoted
import CircuitCompiler.Notation.Scope
import CircuitCompiler.Project.Config
import CircuitCompiler.Project.Manifest
import CircuitCompiler.Project.Starter
import CircuitCompiler.Proofs.Acceptance
import CircuitCompiler.Proofs.Agreement
import CircuitCompiler.Proofs.Carets
import CircuitCompiler.Proofs.Chunks
import CircuitCompiler.Proofs.Cuts
import CircuitCompiler.Proofs.Cycles
import CircuitCompiler.Proofs.Declared
import CircuitCompiler.Proofs.Encoding
import CircuitCompiler.Proofs.Erasure
import CircuitCompiler.Proofs.Failures
import CircuitCompiler.Proofs.Findings
import CircuitCompiler.Proofs.Grammar
import CircuitCompiler.Proofs.Graph
import CircuitCompiler.Proofs.Interfaces
import CircuitCompiler.Proofs.Keys
import CircuitCompiler.Proofs.Layout
import CircuitCompiler.Proofs.Levels
import CircuitCompiler.Proofs.Lexeme
import CircuitCompiler.Proofs.LookAhead
import CircuitCompiler.Proofs.Mirror
import CircuitCompiler.Proofs.Numbering
import CircuitCompiler.Proofs.Outputs
import CircuitCompiler.Proofs.Positions
import CircuitCompiler.Proofs.Precedence
import CircuitCompiler.Proofs.Relocation
import CircuitCompiler.Proofs.Rendering
import CircuitCompiler.Proofs.Reordering
import CircuitCompiler.Proofs.Scan
import CircuitCompiler.Proofs.Sentences
import CircuitCompiler.Proofs.Shapes
import CircuitCompiler.Proofs.Signals
import CircuitCompiler.Proofs.SourceKeys
import CircuitCompiler.Proofs.Spaced
import CircuitCompiler.Proofs.Spelling
import CircuitCompiler.Proofs.TrackedComponent
import CircuitCompiler.Proofs.TrackedExpr
import CircuitCompiler.Proofs.Tracking
import CircuitCompiler.Proofs.Transparency
import CircuitCompiler.Proofs.Verdict
import CircuitCompiler.Proofs.Wiring
import CircuitCompiler.Source.Cursor
import CircuitCompiler.Source.File
import CircuitCompiler.Source.Span
import CircuitCompiler.Text.Blank
import CircuitCompiler.Text.Bytes
import CircuitCompiler.Text.Cluster
import CircuitCompiler.Text.Columns
import CircuitCompiler.Text.Decimal
import CircuitCompiler.Text.Digest
import CircuitCompiler.Text.Json
import CircuitCompiler.Text.Layout
import CircuitCompiler.Text.Letter
import CircuitCompiler.Text.PathName
import CircuitCompiler.Text.Printable
import CircuitCompiler.Text.Quoted
import CircuitCompiler.Text.Style
import CircuitCompiler.Text.Terminal
import CircuitCompiler.Text.Time
import CircuitCompiler.Token.Basic
import CircuitCompiler.Token.Kind
import CircuitCompiler.Token.Lexer
import CircuitCompiler.Token.Listing
import CircuitCompiler.Token.Parse
import CircuitCompiler.Token.Scan
import CircuitCompiler.Token.Stream
import CircuitCompiler.Toml.Basic
import CircuitCompiler.Toml.Document
import CircuitCompiler.Toml.Parse
import CircuitCompiler.Toml.Scalar
import CircuitCompiler.Trace.Event
import CircuitCompiler.Trace.Span
import CircuitCompiler.Vhdl.Arena
import CircuitCompiler.Vhdl.Emit
import CircuitCompiler.Vhdl.Expr
import CircuitCompiler.Vhdl.Line
import CircuitCompiler.Vhdl.Lowering
import CircuitCompiler.Vhdl.Type
import CircuitCompiler.Proofs.Flattening
import CircuitCompiler.Proofs.PortMaps
import CircuitCompiler.Proofs.Tables
import CircuitCompiler.Proofs.Identifiers
import CircuitCompiler.Proofs.Patterns
import CircuitCompiler.Proofs.Schema
import CircuitCompiler.Proofs.Conformance
import CircuitCompiler.Proofs.Counting
import CircuitCompiler.Proofs.PortTypes
import CircuitCompiler.Proofs.Places
import CircuitCompiler.Proofs.Reporting
import CircuitCompiler.Proofs.ReportedExpr
import CircuitCompiler.Proofs.ReportedComponent
import CircuitCompiler.Proofs.Reports
import CircuitCompiler.Proofs.Ranges
import CircuitCompiler.Proofs.Scopes
import CircuitCompiler.Proofs.Nesting
import CircuitCompiler.Proofs.Placing
import CircuitCompiler.Proofs.PlacedExpr
import CircuitCompiler.Proofs.PlacedComponent
import CircuitCompiler.Proofs.Placement
import CircuitCompiler.Proofs.Draining
import CircuitCompiler.Proofs.Lossless
import CircuitCompiler.Proofs.Respacing
import CircuitCompiler.Proofs.Faults
import CircuitCompiler.Proofs.Reuse
import CircuitCompiler.Proofs.Bags
import CircuitCompiler.Proofs.ListForms
import CircuitCompiler.Proofs.Widths
import CircuitCompiler.Proofs.Lines
import CircuitCompiler.Proofs.Skeleton
import CircuitCompiler.Proofs.Storing
import CircuitCompiler.Proofs.Arenas
import CircuitCompiler.Proofs.Termination
