import ConfigGraph.Calendar
import ConfigGraph.Command.Arguments
import ConfigGraph.Command.Execution
import ConfigGraph.Crawl
import ConfigGraph.Diagnostic
import ConfigGraph.Document
import ConfigGraph.Error
import ConfigGraph.Evaluation
import ConfigGraph.Expr
import ConfigGraph.Host
import ConfigGraph.Host.FileSystem
import ConfigGraph.Host.Memory
import ConfigGraph.Json.Basic
import ConfigGraph.Json.Decode
import ConfigGraph.Json.Encode
import ConfigGraph.Json.StringLiteral
import ConfigGraph.LanguageServer
import ConfigGraph.Loading
import ConfigGraph.Log
import ConfigGraph.Main
import ConfigGraph.Number.Basic
import ConfigGraph.Number.Binary64
import ConfigGraph.Number.Decimal
import ConfigGraph.Number.Literal
import ConfigGraph.Operator
import ConfigGraph.Parser.Basic
import ConfigGraph.Parser.Report
import ConfigGraph.Parser.State
import ConfigGraph.Path
import ConfigGraph.Position
import ConfigGraph.Proofs.Command.Output
import ConfigGraph.Proofs.Cursor
import ConfigGraph.Proofs.DepthFirst
import ConfigGraph.Proofs.Document
import ConfigGraph.Proofs.Error
import ConfigGraph.Proofs.Evaluation.Afresh
import ConfigGraph.Proofs.Evaluation.Alike
import ConfigGraph.Proofs.Evaluation.Closed
import ConfigGraph.Proofs.Evaluation.Comparison
import ConfigGraph.Proofs.Evaluation.Cycle
import ConfigGraph.Proofs.Evaluation.Level
import ConfigGraph.Proofs.Evaluation.LexicalScope
import ConfigGraph.Proofs.Evaluation.Lockstep
import ConfigGraph.Proofs.Evaluation.Outcome
import ConfigGraph.Proofs.Evaluation.Perform
import ConfigGraph.Proofs.Evaluation.Safe
import ConfigGraph.Proofs.Evaluation.Scope
import ConfigGraph.Proofs.Evaluation.Shared
import ConfigGraph.Proofs.Evaluation.Task
import ConfigGraph.Proofs.Evaluation.Termination
import ConfigGraph.Proofs.Grammar.Acceptance
import ConfigGraph.Proofs.Grammar.Adequacy
import ConfigGraph.Proofs.Grammar.Completion
import ConfigGraph.Proofs.Grammar.Derivation
import ConfigGraph.Proofs.Grammar.Erasure
import ConfigGraph.Proofs.Grammar.Frame
import ConfigGraph.Proofs.Grammar.Gap
import ConfigGraph.Proofs.Grammar.Imports
import ConfigGraph.Proofs.Grammar.Leaves
import ConfigGraph.Proofs.Grammar.Lexeme
import ConfigGraph.Proofs.Grammar.Lexing
import ConfigGraph.Proofs.Grammar.Literal
import ConfigGraph.Proofs.Grammar.Lookahead
import ConfigGraph.Proofs.Grammar.Nesting
import ConfigGraph.Proofs.Grammar.Reading
import ConfigGraph.Proofs.Grammar.Soundness
import ConfigGraph.Proofs.Grammar.Spans
import ConfigGraph.Proofs.Grammar.Stack
import ConfigGraph.Proofs.Grammar.Strings
import ConfigGraph.Proofs.Grammar.Trace
import ConfigGraph.Proofs.Grammar.Viability
import ConfigGraph.Proofs.Grammar.Words
import ConfigGraph.Proofs.Host.FileSystem
import ConfigGraph.Proofs.Host.Memory
import ConfigGraph.Proofs.Json.Ascii
import ConfigGraph.Proofs.Json.Parts
import ConfigGraph.Proofs.Json.RoundTrip
import ConfigGraph.Proofs.Json.Scalar
import ConfigGraph.Proofs.Json.Spelling
import ConfigGraph.Proofs.Json.StringLiteral
import ConfigGraph.Proofs.Keys
import ConfigGraph.Proofs.LanguageServer.Clearing
import ConfigGraph.Proofs.LanguageServer.History
import ConfigGraph.Proofs.LanguageServer.Imports
import ConfigGraph.Proofs.LanguageServer.Links
import ConfigGraph.Proofs.LanguageServer.Publication
import ConfigGraph.Proofs.Load.Agenda
import ConfigGraph.Proofs.Load.Agreement
import ConfigGraph.Proofs.Load.Canonical
import ConfigGraph.Proofs.Load.Closure
import ConfigGraph.Proofs.Load.Coupling
import ConfigGraph.Proofs.Load.Data
import ConfigGraph.Proofs.Load.DepthFirst
import ConfigGraph.Proofs.Load.Entry
import ConfigGraph.Proofs.Load.Files
import ConfigGraph.Proofs.Load.HostFailure
import ConfigGraph.Proofs.Load.LexicalScope
import ConfigGraph.Proofs.Load.Location
import ConfigGraph.Proofs.Load.Order
import ConfigGraph.Proofs.Load.Perform
import ConfigGraph.Proofs.Load.Prompting
import ConfigGraph.Proofs.Load.Reach
import ConfigGraph.Proofs.Load.Recursion
import ConfigGraph.Proofs.Load.Replay
import ConfigGraph.Proofs.Load.Settlement
import ConfigGraph.Proofs.Load.Steps
import ConfigGraph.Proofs.Load.Taxonomy
import ConfigGraph.Proofs.Load.Termination
import ConfigGraph.Proofs.Load.Trace
import ConfigGraph.Proofs.Load.Transcript
import ConfigGraph.Proofs.Load.Visit
import ConfigGraph.Proofs.Nodes
import ConfigGraph.Proofs.Number.Binary64
import ConfigGraph.Proofs.Number.Literal
import ConfigGraph.Proofs.Number.Quantity
import ConfigGraph.Proofs.Outline
import ConfigGraph.Proofs.Path
import ConfigGraph.Proofs.Path.Place
import ConfigGraph.Proofs.Position
import ConfigGraph.Proofs.Sequence
import ConfigGraph.Proofs.Text.Digits
import ConfigGraph.Proofs.Text.Row
import ConfigGraph.Proofs.Text.Utf8
import ConfigGraph.Proofs.Uri.File
import ConfigGraph.Proofs.Uri.Percent
import ConfigGraph.Proofs.Value.Akin
import ConfigGraph.Proofs.Value.Data
import ConfigGraph.Proofs.Value.Depth
import ConfigGraph.Proofs.Value.Finite
import ConfigGraph.Proofs.Value.FirstObstacle
import ConfigGraph.Proofs.Value.Graph
import ConfigGraph.Proofs.Value.Json
import ConfigGraph.Proofs.Value.Key
import ConfigGraph.Proofs.Value.Likeness
import ConfigGraph.Proofs.Value.Overlay
import ConfigGraph.Proofs.Value.OverlayAlgebra
import ConfigGraph.Proofs.Value.Parametric
import ConfigGraph.Proofs.Value.Record
import ConfigGraph.Proofs.Value.Rooted
import ConfigGraph.Proofs.Value.Serialization
import ConfigGraph.Proofs.Value.Structure
import ConfigGraph.Proofs.Value.Unfolding
import ConfigGraph.Proofs.Yaml.Rooted
import ConfigGraph.Store
import ConfigGraph.Text.Base64
import ConfigGraph.Text.Basic
import ConfigGraph.Text.DecimalDigit
import ConfigGraph.Text.LetterCase
import ConfigGraph.Text.LowerCase
import ConfigGraph.Text.Printable
import ConfigGraph.Text.Quoted
import ConfigGraph.Text.Space
import ConfigGraph.Text.Utf8
import ConfigGraph.Token.Basic
import ConfigGraph.Token.Lexer
import ConfigGraph.Uri.Address
import ConfigGraph.Uri.Basic
import ConfigGraph.Uri.File
import ConfigGraph.Uri.Percent
import ConfigGraph.Value.Basic
import ConfigGraph.Value.Display
import ConfigGraph.Value.Equality
import ConfigGraph.Value.Graph
import ConfigGraph.Value.Json
import ConfigGraph.Value.Merge
import ConfigGraph.Yaml.Data
import ConfigGraph.Yaml.Decode
import ConfigGraph.Yaml.Event.Basic
import ConfigGraph.Yaml.Event.Grammar
import ConfigGraph.Yaml.Fault
import ConfigGraph.Yaml.Node
import ConfigGraph.Yaml.Place
import ConfigGraph.Yaml.Scalar
import ConfigGraph.Yaml.Tag
import ConfigGraph.Yaml.Timestamp
import ConfigGraph.Yaml.Token.Basic
import ConfigGraph.Yaml.Token.Directive
import ConfigGraph.Yaml.Token.Lexer
import ConfigGraph.Yaml.Token.Name
import ConfigGraph.Yaml.Token.Scalar
import ConfigGraph.Proofs.Json.Draft
