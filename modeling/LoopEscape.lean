import LoopEscape.Text.CodeTable
import LoopEscape.Text.CharClass
import LoopEscape.Text.Lines
import LoopEscape.Text.NormalData
import LoopEscape.Text.Normal
import LoopEscape.Text.Quoted
import LoopEscape.Text.Encoding
import LoopEscape.Token.Basic
import LoopEscape.Token.Pattern
import LoopEscape.Token.Scan
import LoopEscape.Token.Layout
import LoopEscape.Files
import LoopEscape.Diagnostic.Annotation
import LoopEscape.Diagnostic.Report
import LoopEscape.Diagnostic.Warning
import LoopEscape.Version.Basic
import LoopEscape.Version.Specifier
import LoopEscape.Version.Pragma
import LoopEscape.Settings
import LoopEscape.Diagnostic.Failure
import LoopEscape.Dialect.Basic
import LoopEscape.Dialect.Clause
import LoopEscape.Dialect.Strip
import LoopEscape.Decimal.Binary
import LoopEscape.Decimal.Shortest
import LoopEscape.Tree.Expr
import LoopEscape.Tree.Stmt
import LoopEscape.Grammar.Lexer
import LoopEscape.Grammar.Literal
import LoopEscape.Grammar.Parser
import LoopEscape.Grammar.Expression
import LoopEscape.Grammar.Statement
import LoopEscape.Grammar.Doubtful
import LoopEscape.Text.Literal
import LoopEscape.Tree.Printer
import LoopEscape.Tree.Outline
import LoopEscape.Dialect.Attach
import LoopEscape.Tree.Rose
import LoopEscape.Scope.Bound
import LoopEscape.Scope.Declared
import LoopEscape.Label.Resolve
import LoopEscape.Escape.Jump
import LoopEscape.Escape.Taxonomy
import LoopEscape.Generate.Code
import LoopEscape.Generate.Task
import LoopEscape.Generate.Dispatch
import LoopEscape.Generate.Expand
import LoopEscape.Generate.Lower
import LoopEscape.Rules.Basic
import LoopEscape.Rules.Future
import LoopEscape.Rules.Symbols
import LoopEscape.Rules.Placement
import LoopEscape.Rules.Check
import LoopEscape.Text.Json
import LoopEscape.Compile.Summary
import LoopEscape.Compile.Stage
import LoopEscape.Compile.Basic
import LoopEscape.Relay.Value
import LoopEscape.Relay.Basic
import LoopEscape.Relay.Script
import LoopEscape.Execute.Basic
import LoopEscape.Execute.Import
import LoopEscape.CommandLine.Arguments
import LoopEscape.CommandLine.Basic
import LoopEscape.Main
import LoopEscape.Proofs.Label.Fit
import LoopEscape.Proofs.Label.WellLabelled
import LoopEscape.Proofs.Meaning.World
import LoopEscape.Proofs.Meaning.Exec
import LoopEscape.Proofs.Generate.Names
import LoopEscape.Proofs.Generate.Pieces
import LoopEscape.Proofs.Lower.Relation
import LoopEscape.Proofs.Lower.Spec
import LoopEscape.Proofs.Lower.Visible
import LoopEscape.Proofs.Meaning.Calm
import LoopEscape.Proofs.Meaning.Follow
import LoopEscape.Proofs.Meaning.Lower
import LoopEscape.Proofs.Tree.Names
import LoopEscape.Proofs.Tree.Every
import LoopEscape.Proofs.Tree.Mentions
import LoopEscape.Proofs.Tree.Identifiers
import LoopEscape.Proofs.Grammar.Triples
import LoopEscape.Proofs.Grammar.Expressions
import LoopEscape.Proofs.Grammar.Native
import LoopEscape.Proofs.Dialect.Headers
import LoopEscape.Proofs.Meaning.Source
import LoopEscape.Proofs.Meaning.Module
import LoopEscape.Proofs.Meaning.Labels
import LoopEscape.Proofs.Expand.Relation
import LoopEscape.Proofs.Expand.Targets
import LoopEscape.Proofs.Meaning.Layers
import LoopEscape.Proofs.Meaning.Relay
import LoopEscape.Proofs.Meaning.Dispatch
import LoopEscape.Proofs.Meaning.Mirror
import LoopEscape.Proofs.Meaning.Expand
import LoopEscape.Proofs.Meaning.Draft
import LoopEscape.Proofs.Meaning.Loops
import LoopEscape.Proofs.Expand.Mentions
import LoopEscape.Proofs.Lower.Closed
import LoopEscape.Proofs.Compile.Closed
import LoopEscape.Proofs.Label.Unused
import LoopEscape.Proofs.Expand.Grounded
import LoopEscape.Proofs.Expand.Events
import LoopEscape.Proofs.Lower.Events
import LoopEscape.Proofs.Compile.Legal
import LoopEscape.Proofs.Expand.Captures
import LoopEscape.Proofs.Escape.Outcomes
import LoopEscape.Proofs.Crossing.Jumps
import LoopEscape.Proofs.Token.Pattern
import LoopEscape.Proofs.Token.Order
import LoopEscape.Proofs.Dialect.Parts
import LoopEscape.Proofs.Dialect.Bookkeeping
import LoopEscape.Proofs.Dialect.Values
import LoopEscape.Proofs.Dialect.HeaderGrammar
import LoopEscape.Proofs.Lower.Holders
import LoopEscape.Proofs.Expand.Imports
import LoopEscape.Proofs.Compile.Prelude
import LoopEscape.Proofs.Grammar.Words
import LoopEscape.Proofs.Dialect.Attached
import LoopEscape.Proofs.Dialect.Reserved
import LoopEscape.Proofs.Scope.Hoisting
import LoopEscape.Proofs.Dialect.Faults
import LoopEscape.Proofs.Relay.Protocol
import LoopEscape.Proofs.Diagnostic.Located
import LoopEscape.Proofs.Expand.Numbers
import LoopEscape.Proofs.Generate.Distinct
import LoopEscape.Proofs.Version.Caret
import LoopEscape.Proofs.Execute.Loading
