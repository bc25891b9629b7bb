import JinjaLayout.Text.Basic
import JinjaLayout.Text.Letter
import JinjaLayout.Text.Quoted
import JinjaLayout.Text.Uppercase
import JinjaLayout.Text.StringLiteral
import JinjaLayout.Token.Kind
import JinjaLayout.Token.Lexeme
import JinjaLayout.Token.Literal
import JinjaLayout.Environment
import JinjaLayout.Fault
import JinjaLayout.Token.Marker
import JinjaLayout.Token.Scan
import JinjaLayout.Token.Table
import JinjaLayout.Token.Cursor
import JinjaLayout.Error
import JinjaLayout.Number.Integer
import JinjaLayout.Number.Double
import JinjaLayout.Tree.Basic
import JinjaLayout.Grammar.Production
import JinjaLayout.Grammar.Expression
import JinjaLayout.Grammar.Tag
import JinjaLayout.Grammar.Statement
import JinjaLayout.Template
import JinjaLayout.Tree.Node
import JinjaLayout.Tree.Bare
import JinjaLayout.Alignment.Expression
import JinjaLayout.Alignment.Statement
import JinjaLayout.Spacing.Passes
import JinjaLayout.Spacing.Report
import JinjaLayout.Finding.Basic
import JinjaLayout.Settings.Basic
import JinjaLayout.Pattern.Basic
import JinjaLayout.Pattern.Reader
import JinjaLayout.Pattern.Replace
import JinjaLayout.Rendering.Basic
import JinjaLayout.CommandLine.Arguments
import JinjaLayout.CommandLine.Invocation
import JinjaLayout.CommandLine.Run
import JinjaLayout.Main
import JinjaLayout.Proofs.Cuts
import JinjaLayout.Proofs.TagInside
import JinjaLayout.Proofs.StockMarker
import JinjaLayout.Proofs.Delimiters
import JinjaLayout.Proofs.Outline
import JinjaLayout.Proofs.TokenChain
import JinjaLayout.Proofs.SpacingPasses
import JinjaLayout.Proofs.SpacingGaps
import JinjaLayout.Proofs.SpacingOutline
import JinjaLayout.Proofs.SpacingTokens
import JinjaLayout.Proofs.SpacingFixedPoint
import JinjaLayout.Proofs.SpacingFrame
import JinjaLayout.Proofs.ScanSteps
import JinjaLayout.Proofs.TokenTiling
import JinjaLayout.Proofs.TablePairs
import JinjaLayout.Proofs.TokenNesting
import JinjaLayout.Proofs.StringLiterals
import JinjaLayout.Proofs.ChompedSpace
import JinjaLayout.Proofs.ProductionReads
import JinjaLayout.Proofs.ExpressionReads
import JinjaLayout.Proofs.StatementReads
import JinjaLayout.Proofs.MatchedBrackets
import JinjaLayout.Proofs.Walks
import JinjaLayout.Proofs.ExpressionWalks
import JinjaLayout.Proofs.GroupWalks
import JinjaLayout.Proofs.TagWalks
import JinjaLayout.Proofs.StatementWalks
import JinjaLayout.Proofs.TemplateWalks
import JinjaLayout.Proofs.Marked
import JinjaLayout.Proofs.NodeRows
import JinjaLayout.Proofs.Trimmed
import JinjaLayout.Proofs.Writable
import JinjaLayout.Proofs.Lockstep
import JinjaLayout.Proofs.QuotedText
import JinjaLayout.Proofs.Reannotation
import JinjaLayout.Proofs.NestedSpans
import JinjaLayout.Proofs.KeptText
import JinjaLayout.Proofs.LostParentheses
import JinjaLayout.Proofs.FormedExpressions
import JinjaLayout.Proofs.FormedTemplates
import JinjaLayout.Proofs.Occurrences
import JinjaLayout.Proofs.StoredPairs
import JinjaLayout.Proofs.EditedOutputs
import JinjaLayout.Proofs.GroupedSpans
import JinjaLayout.Proofs.CursorMoves
import JinjaLayout.Proofs.OpenBrackets
import JinjaLayout.Proofs.PlainData
import JinjaLayout.Proofs.GrammarMachine
import JinjaLayout.Proofs.ParserEnds
import JinjaLayout.Proofs.IntegerLiterals
import JinjaLayout.Proofs.UnreadAttributes
