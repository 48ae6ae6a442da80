import TypeStub.CommandLine
import TypeStub.Tool.Toolbox
import TypeStub.Tool.System.Access
import TypeStub.Main
import TypeStub.Proofs.Declaration.Docstring
import TypeStub.Proofs.TypeExpr.Token
import TypeStub.Proofs.TypeExpr.Node
import TypeStub.Proofs.TypeExpr.Value
import TypeStub.Proofs.TypeExpr.Lexeme
import TypeStub.Proofs.TypeExpr.Spelling
import TypeStub.Proofs.Outcome
import TypeStub.Proofs.TypeExpr.Grammar
import TypeStub.Proofs.TypeExpr.Printer
import TypeStub.Proofs.TypeExpr.Exposed
import TypeStub.Proofs.TypeExpr.Reread
import TypeStub.Proofs.TypeExpr.RoundTrip
import TypeStub.Proofs.Declaration.Layout
import TypeStub.Proofs.Declaration.Tidy
import TypeStub.Proofs.Stub
import TypeStub.Proofs.Declaration.Callable
import TypeStub.Proofs.Membership
import TypeStub.Proofs.Declaration.Assembly
import TypeStub.Proofs.Declaration.Sections
import TypeStub.Proofs.Declaration.Imports
import TypeStub.Proofs.Reordering
import TypeStub.Proofs.Documentation.Dedent
import TypeStub.Proofs.Declaration.Rederivation
import TypeStub.Proofs.Declaration.Accounting
import TypeStub.Proofs.Text.Backward
import TypeStub.Proofs.TypeExpr.Normal
import TypeStub.Proofs.TypeExpr.StubText
import TypeStub.Proofs.Signature
import TypeStub.Proofs.Declaration.ParameterText
import TypeStub.Proofs.Declaration.ParameterList
import TypeStub.Proofs.Declaration.ParameterGrammar
import TypeStub.Proofs.TypeExpr.Occurrence
import TypeStub.Proofs.Declaration.Exclusion
import TypeStub.Proofs.Files.Path
import TypeStub.Proofs.FileTree
import TypeStub.Proofs.CommandLine
import TypeStub.Proofs.Json.Record
import TypeStub.Proofs.Json.Writer
import TypeStub.Proofs.Dump.Form
import TypeStub.Proofs.Dump.Written
import TypeStub.Proofs.TypeExpr.Name
import TypeStub.Proofs.TypeExpr.Accepted
import TypeStub.Proofs.TypeExpr.Respelling
import TypeStub.Proofs.TypeExpr.Derivation
import TypeStub.Proofs.Declaration.Construction
import TypeStub.Proofs.Text.Trimmed
import TypeStub.Proofs.Text.Line
import TypeStub.Proofs.Documentation.Description
import TypeStub.Proofs.Documentation.Margin
import TypeStub.Proofs.Documentation.Reading
import TypeStub.Proofs.Declaration.Description
import TypeStub.Proofs.TypeExpr.Parentheses
import TypeStub.Proofs.TypeExpr.Division
import TypeStub.Proofs.Text.EditDistance
import TypeStub.Proofs.Config.Suggestion
import TypeStub.Proofs.Config.Table
import TypeStub.Proofs.Text.RowPattern
import TypeStub.Proofs.Documentation.Pattern
import TypeStub.Proofs.Documentation.Concatenation
