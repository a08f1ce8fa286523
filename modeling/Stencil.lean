import Stencil.Analysis.Basic
import Stencil.Analysis.Event
import Stencil.Analysis.Run
import Stencil.Analysis.Workspace
import Stencil.Baseline.Basic
import Stencil.Baseline.File
import Stencil.Builtin.Arithmetic
import Stencil.Builtin.Call
import Stencil.Builtin.Datum
import Stencil.Builtin.Filters
import Stencil.Builtin.Format
import Stencil.Builtin.Given
import Stencil.Builtin.Helpers
import Stencil.Builtin.Objects
import Stencil.Builtin.Tests
import Stencil.Checker.Basic
import Stencil.Checker.Message
import Stencil.Checker.Mypy
import Stencil.Checker.Script
import Stencil.Code.Const
import Stencil.Code.FileName
import Stencil.Code.Grammar
import Stencil.Code.Layout
import Stencil.Code.Name
import Stencil.Code.Token
import Stencil.Code.Tree
import Stencil.Collect.CallSite
import Stencil.Collect.Given
import Stencil.Collect.Record
import Stencil.Collect.Spelling
import Stencil.CommandLine.Arguments
import Stencil.CommandLine.Run
import Stencil.Compile.Expression
import Stencil.Compile.Statement
import Stencil.Compile.Unit
import Stencil.Data.Access
import Stencil.Data.Check
import Stencil.Data.Json
import Stencil.Data.JsonText
import Stencil.Data.Moment
import Stencil.Data.Toml
import Stencil.Data.Value
import Stencil.Decimal.Exact
import Stencil.Decimal.Shortest
import Stencil.Dependency.Cycle
import Stencil.Dependency.Discovery
import Stencil.Dependency.Graph
import Stencil.Dependency.Order
import Stencil.Diagnosis.Basic
import Stencil.Diagnosis.Given
import Stencil.Diagnosis.Report
import Stencil.Diagnosis.Merge
import Stencil.Diagnosis.RenderTable
import Stencil.Diagnosis.Wording
import Stencil.Digest.Sha1
import Stencil.Files.Given
import Stencil.Files.Text
import Stencil.Files.Tree
import Stencil.Flatten.Composite
import Stencil.Flatten.Reading
import Stencil.Flatten.Unit
import Stencil.Main
import Stencil.Observed.Injection
import Stencil.Observed.Section
import Stencil.Path
import Stencil.Pattern.Basic
import Stencil.Pattern.Glob
import Stencil.Pattern.Parser
import Stencil.Pattern.Search
import Stencil.Scan.Files
import Stencil.Scan.IgnoreFile
import Stencil.Settings.Basic
import Stencil.Settings.Extension
import Stencil.Settings.Read
import Stencil.Settings.Scratch
import Stencil.Source.Location
import Stencil.Template.ExprParser
import Stencil.Template.Given
import Stencil.Template.Lexer
import Stencil.Template.Library
import Stencil.Template.Mention
import Stencil.Template.Parser
import Stencil.Template.Reference
import Stencil.Template.StmtParser
import Stencil.Template.Syntax
import Stencil.Template.Token
import Stencil.Template.Translation
import Stencil.Text.Blank
import Stencil.Text.Case
import Stencil.Text.CaseTable
import Stencil.Text.Escape
import Stencil.Text.Identifier
import Stencil.Text.Natural
import Stencil.Text.Printable
import Stencil.Text.Quoted
import Stencil.Text.Ranges
import Stencil.Text.Word
import Stencil.Proofs.Code.Atom
import Stencil.Proofs.Code.Gives
import Stencil.Proofs.Code.Number
import Stencil.Proofs.Code.Rows
import Stencil.Proofs.Code.Scaffold
import Stencil.Proofs.Flatten.Amid
import Stencil.Proofs.Flatten.Blocks
import Stencil.Proofs.Flatten.Chains
import Stencil.Proofs.Flatten.Failure
import Stencil.Proofs.Flatten.Render
import Stencil.Proofs.Flatten.Shapes
import Stencil.Proofs.Dependency.Cycles
import Stencil.Proofs.Dependency.Order
import Stencil.Proofs.Code.Quoted
import Stencil.Proofs.Compile.Constant
import Stencil.Proofs.Compile.Expression
import Stencil.Proofs.Compile.Keeps
import Stencil.Proofs.Compile.Lays
import Stencil.Proofs.Compile.ReadBack
import Stencil.Proofs.Dependency.Closure
import Stencil.Proofs.Dependency.Targets
import Stencil.Proofs.Diagnosis.Collapse
import Stencil.Proofs.Diagnosis.Report
import Stencil.Proofs.Flatten.Shared
import Stencil.Proofs.Observed.Declared
import Stencil.Proofs.Baseline.RoundTrip
import Stencil.Proofs.Analysis.Classes
import Stencil.Proofs.Analysis.Fatal
import Stencil.Proofs.Scan.Scratch
import Stencil.Proofs.Collect.Stream
import Stencil.Proofs.Observed.Bound
import Stencil.Proofs.Analysis.Confined
import Stencil.Proofs.Compile.Renamed
import Stencil.Proofs.Compile.Grouped
import Stencil.Proofs.Compile.RenderedLine
import Stencil.Proofs.Compile.Physical
import Stencil.Proofs.Observed.Imported
import Stencil.Proofs.Observed.Typed
import Stencil.Proofs.Diagnosis.Piecewise
import Stencil.Proofs.Diagnosis.RenderTable
import Stencil.Proofs.Baseline.Canonical
import Stencil.Proofs.Dependency.Traversal
import Stencil.Proofs.Diagnosis.Reworded
import Stencil.Proofs.Template.Possible
import Stencil.Proofs.Text.Natural
