import TraitMock.Command.FileTree
import TraitMock.Command.Findings
import TraitMock.Command.Options
import TraitMock.Command.Run
import TraitMock.Command.SourcePath
import TraitMock.Command.Word
import TraitMock.Decl.Alike
import TraitMock.Decl.Basic
import TraitMock.Decl.Generics
import TraitMock.Decl.Item
import TraitMock.Decl.Merge
import TraitMock.Decl.Render
import TraitMock.Decl.Reroot
import TraitMock.Decl.Visibility
import TraitMock.Main
import TraitMock.Method.Facts
import TraitMock.Method.Normalize
import TraitMock.Mock.Names
import TraitMock.Mock.Plan
import TraitMock.Mock.Text
import TraitMock.Proofs.Command.Lines
import TraitMock.Proofs.Command.Sources
import TraitMock.Proofs.Decl.Alike
import TraitMock.Proofs.Decl.Argument
import TraitMock.Proofs.Decl.Bindings
import TraitMock.Proofs.Decl.Constraints
import TraitMock.Proofs.Decl.ListRules
import TraitMock.Proofs.Decl.Lowered
import TraitMock.Proofs.Decl.Lowering
import TraitMock.Proofs.Decl.Macros
import TraitMock.Proofs.Decl.Merge
import TraitMock.Proofs.Decl.MethodRules
import TraitMock.Proofs.Decl.Moved
import TraitMock.Proofs.Decl.Nodes
import TraitMock.Proofs.Decl.PartRules
import TraitMock.Proofs.Decl.Plain
import TraitMock.Proofs.Decl.Planned
import TraitMock.Proofs.Decl.ReadForms
import TraitMock.Proofs.Decl.ReadMoved
import TraitMock.Proofs.Decl.ReadParts
import TraitMock.Proofs.Decl.ReadSpans
import TraitMock.Proofs.Decl.Rebuild
import TraitMock.Proofs.Decl.Rerooted
import TraitMock.Proofs.Decl.RoundTrip
import TraitMock.Proofs.Decl.Scope
import TraitMock.Proofs.Decl.TypeRules
import TraitMock.Proofs.Decl.Unmuted
import TraitMock.Proofs.Decl.Writing
import TraitMock.Proofs.Method.Applied
import TraitMock.Proofs.Method.Grouping
import TraitMock.Proofs.Method.Moved
import TraitMock.Proofs.Method.Named
import TraitMock.Proofs.Method.Normalize
import TraitMock.Proofs.Method.Renormalize
import TraitMock.Proofs.Method.StandIns
import TraitMock.Proofs.Mock.Closed
import TraitMock.Proofs.Mock.Concat
import TraitMock.Proofs.Mock.Depth
import TraitMock.Proofs.Mock.Faults
import TraitMock.Proofs.Mock.Forms
import TraitMock.Proofs.Mock.Moved
import TraitMock.Proofs.Mock.Names
import TraitMock.Proofs.Mock.Policy
import TraitMock.Proofs.Mock.Relayout
import TraitMock.Proofs.Mock.Reports
import TraitMock.Proofs.Mock.Shown
import TraitMock.Proofs.Mock.Signature
import TraitMock.Proofs.Mock.Spans
import TraitMock.Proofs.Report.Clean
import TraitMock.Proofs.Report.Ending
import TraitMock.Proofs.Report.Laws
import TraitMock.Proofs.Report.Moved
import TraitMock.Proofs.Report.OneLine
import TraitMock.Proofs.Report.Policy
import TraitMock.Proofs.Report.Reports
import TraitMock.Proofs.Syntax.Adjoining
import TraitMock.Proofs.Syntax.Again
import TraitMock.Proofs.Syntax.Automaton
import TraitMock.Proofs.Syntax.Beneath
import TraitMock.Proofs.Syntax.Change
import TraitMock.Proofs.Syntax.Concat
import TraitMock.Proofs.Syntax.Down
import TraitMock.Proofs.Syntax.Draft
import TraitMock.Proofs.Syntax.Excerpt
import TraitMock.Proofs.Syntax.Follow
import TraitMock.Proofs.Syntax.Induction
import TraitMock.Proofs.Syntax.ItemEnd
import TraitMock.Proofs.Syntax.Layout
import TraitMock.Proofs.Syntax.Lexeme
import TraitMock.Proofs.Syntax.Likeness
import TraitMock.Proofs.Syntax.Located
import TraitMock.Proofs.Syntax.Nesting
import TraitMock.Proofs.Syntax.Onward
import TraitMock.Proofs.Syntax.Pattern
import TraitMock.Proofs.Syntax.Phrase
import TraitMock.Proofs.Syntax.Reading
import TraitMock.Proofs.Syntax.Refusal
import TraitMock.Proofs.Syntax.Relayout
import TraitMock.Proofs.Syntax.Spelled
import TraitMock.Proofs.Syntax.Spread
import TraitMock.Proofs.Syntax.Taken
import TraitMock.Proofs.Syntax.WholeWords
import TraitMock.Proofs.Syntax.Words
import TraitMock.Proofs.Walk.Commute
import TraitMock.Proofs.Walk.Equation
import TraitMock.Proofs.Walk.Faults
import TraitMock.Proofs.Walk.Forms
import TraitMock.Proofs.Walk.Image
import TraitMock.Proofs.Walk.Moved
import TraitMock.Proofs.Walk.Parts
import TraitMock.Proofs.Walk.Passes
import TraitMock.Proofs.Walk.Places
import TraitMock.Proofs.Walk.Preorder
import TraitMock.Proofs.Walk.Raise
import TraitMock.Proofs.Walk.Search
import TraitMock.Proofs.Walk.SelfType
import TraitMock.Proofs.Walk.Sharing
import TraitMock.Proofs.Walk.Stems
import TraitMock.Proofs.Walk.Traces
import TraitMock.Proofs.Walk.Unraise
import TraitMock.Report.Checked
import TraitMock.Report.Diagnostic
import TraitMock.Span
import TraitMock.Syntax.Collect
import TraitMock.Syntax.Grammar
import TraitMock.Syntax.Lexer
import TraitMock.Syntax.Machine
import TraitMock.Syntax.Message
import TraitMock.Syntax.Parse
import TraitMock.Syntax.Rule
import TraitMock.Syntax.Symbol
import TraitMock.Syntax.Table
import TraitMock.Syntax.Terminal
import TraitMock.Syntax.Token
import TraitMock.Text.Blank
import TraitMock.Text.Decimal
import TraitMock.Text.Joined
import TraitMock.Text.Json
import TraitMock.Text.Printable
import TraitMock.Text.Quoted
import TraitMock.Text.Utf8
import TraitMock.Walk.Basic
import TraitMock.Walk.Edit
import TraitMock.Walk.ImplTrait
import TraitMock.Walk.SelfType
import TraitMock.Walk.SuperPath
import TraitMock.Walk.TypePass
