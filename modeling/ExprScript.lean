import ExprScript.Check.Basic
import ExprScript.Check.Diagnostic
import ExprScript.Check.Position
import ExprScript.CommandLine.Args
import ExprScript.CommandLine.FileSystem
import ExprScript.CommandLine.Run
import ExprScript.Compile
import ExprScript.Json.Basic
import ExprScript.Json.Display
import ExprScript.Json.Reader
import ExprScript.Layout.Builder
import ExprScript.Layout.Code
import ExprScript.Layout.Extent
import ExprScript.Main
import ExprScript.Number.Basic
import ExprScript.Number.Numeral
import ExprScript.Number.Shortest
import ExprScript.Render.Chain
import ExprScript.Render.Dialect
import ExprScript.Render.Error
import ExprScript.Render.Expr
import ExprScript.Render.Module
import ExprScript.Render.Template
import ExprScript.Render.Test
import ExprScript.Render.Unfinished
import ExprScript.Report.Basic
import ExprScript.Report.Format
import ExprScript.Report.Paint
import ExprScript.Text.Basic
import ExprScript.Text.Quoted
import ExprScript.Text.Utf8
import ExprScript.Tree.Basic
import ExprScript.Tree.Decode
import ExprScript.Tree.DecodeError
import ExprScript.Tree.Encode
import ExprScript.Tree.Kind
import ExprScript.Tree.Node
import ExprScript.Tree.Operator
import ExprScript.Tree.Path
import ExprScript.Tree.Source
import ExprScript.Proofs.Text.Basic
import ExprScript.Proofs.Tree.Induction
import ExprScript.Proofs.Tree.WellFormed
import ExprScript.Proofs.Outcome
import ExprScript.Proofs.Tree.Decode
import ExprScript.Proofs.Tree.RoundTrip
import ExprScript.Proofs.Tree.Accepted
import ExprScript.Proofs.Layout.Code
import ExprScript.Proofs.Target.Condition
import ExprScript.Proofs.Pattern.Matches
import ExprScript.Proofs.Pattern.Spelling
import ExprScript.Proofs.Pattern.Correct
import ExprScript.Proofs.Chain.Reachable
import ExprScript.Proofs.Target.Branching
import ExprScript.Proofs.Chain.FirstMatch
import ExprScript.Proofs.Tree.Choices
import ExprScript.Proofs.Render.Failure
import ExprScript.Proofs.Json.Place
import ExprScript.Proofs.Tree.Blame
import ExprScript.Proofs.Tree.Culprit
import ExprScript.Proofs.Layout.Document
import ExprScript.Proofs.Layout.Builder
import ExprScript.Proofs.Render.PureLayout
import ExprScript.Proofs.Layout.Embedding
import ExprScript.Proofs.Tree.Context
import ExprScript.Proofs.Render.Hole
import ExprScript.Proofs.Render.Compositional
import ExprScript.Proofs.Lexical.Scanner
import ExprScript.Proofs.Lexical.Code
import ExprScript.Proofs.Lexical.Forms
import ExprScript.Proofs.Tree.Verbatim
import ExprScript.Proofs.Render.SelfContained
import ExprScript.Proofs.Tree.Format
import ExprScript.Proofs.Tree.Unread
import ExprScript.Proofs.CommandLine.Run
import ExprScript.Proofs.Pattern.Places
import ExprScript.Proofs.Pattern.Test
import ExprScript.Proofs.Compile.Checked
import ExprScript.Proofs.Pattern.Bindings
import ExprScript.Proofs.Check.Position
import ExprScript.Proofs.Text.Quoted
import ExprScript.Proofs.Render.Literal
import ExprScript.Proofs.Render.Header
import ExprScript.Proofs.Render.Leading
import ExprScript.Proofs.CommandLine.Args
import ExprScript.Proofs.Layout.InPlace
import ExprScript.Proofs.Render.Declarations
