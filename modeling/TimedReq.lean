import TimedReq.Bound.Checked
import TimedReq.Bound.Statement
import TimedReq.Bound.Units
import TimedReq.CommandLine.Argument
import TimedReq.CommandLine.Check
import TimedReq.CommandLine.Program
import TimedReq.CommandLine.Request
import TimedReq.CommandLine.Switch
import TimedReq.CommandLine.Usage
import TimedReq.Document.Blocks
import TimedReq.Document.File
import TimedReq.Document.Header
import TimedReq.Document.Specification
import TimedReq.Document.Statistics
import TimedReq.Embedding
import TimedReq.Expr.Basic
import TimedReq.Expr.Build
import TimedReq.Expr.Parser
import TimedReq.Expr.Printer
import TimedReq.Expr.Walk
import TimedReq.Files.Path
import TimedReq.Files.Tree
import TimedReq.Language
import TimedReq.Main
import TimedReq.Number.Binary64
import TimedReq.Number.Decimal
import TimedReq.Proofs.Bound.Condensed
import TimedReq.Proofs.Bound.Statement
import TimedReq.Proofs.Document.Comment
import TimedReq.Proofs.Expr.Accepted
import TimedReq.Proofs.Expr.Canonical
import TimedReq.Proofs.Expr.Composition
import TimedReq.Proofs.Expr.Condensed
import TimedReq.Proofs.Expr.Cutting
import TimedReq.Proofs.Expr.Deeper
import TimedReq.Proofs.Expr.Depth
import TimedReq.Proofs.Expr.Operator
import TimedReq.Proofs.Expr.Predicate
import TimedReq.Proofs.Expr.RoundTrip
import TimedReq.Proofs.Expr.Row
import TimedReq.Proofs.Expr.RowReading
import TimedReq.Proofs.Expr.Sections
import TimedReq.Proofs.Expr.Settled
import TimedReq.Proofs.Expr.Similar
import TimedReq.Proofs.Expr.Spacing
import TimedReq.Proofs.Expr.Spelling
import TimedReq.Proofs.Reading
import TimedReq.Proofs.Text.Cut
import TimedReq.Proofs.Text.Lines
import TimedReq.Proofs.Text.Nesting
import TimedReq.Proofs.Text.Normal
import TimedReq.Proofs.Text.Pieces
import TimedReq.Proofs.Text.Quoting
import TimedReq.Proofs.Text.Section
import TimedReq.Proofs.Text.Trim
import TimedReq.Proofs.Vhdl.Condensed
import TimedReq.Proofs.Vhdl.Condition
import TimedReq.Proofs.Vhdl.Derivation
import TimedReq.Proofs.Vhdl.Lexing
import TimedReq.Proofs.Vhdl.Number
import TimedReq.Proofs.Vhdl.Precedence
import TimedReq.Proofs.Vhdl.Printing
import TimedReq.Proofs.Vhdl.Recognised
import TimedReq.Proofs.Vhdl.Restored
import TimedReq.Proofs.Vhdl.Scanning
import TimedReq.Proofs.Vhdl.WellFormed
import TimedReq.Proofs.Vhdl.Written
import TimedReq.Reading
import TimedReq.Report
import TimedReq.Text.Basic
import TimedReq.Text.Blank
import TimedReq.Text.CaseIgnorable
import TimedReq.Text.Digit
import TimedReq.Text.Letter
import TimedReq.Text.LetterCase
import TimedReq.Text.Nesting
import TimedReq.Text.Order
import TimedReq.Text.Printable
import TimedReq.Text.Quoted
import TimedReq.Text.Ranges
import TimedReq.Vhdl.Lexer
import TimedReq.Vhdl.Literal
import TimedReq.Vhdl.Node
import TimedReq.Vhdl.Operator
import TimedReq.Vhdl.Parser
import TimedReq.Vhdl.Token
import TimedReq.Proofs.Document.Runs
import TimedReq.Proofs.Document.Header
import TimedReq.Proofs.Document.Layout
import TimedReq.Proofs.Document.OneLine
import TimedReq.Proofs.Document.RoundTrip
import TimedReq.Proofs.Document.Faults
import TimedReq.Proofs.Expr.TooLong
import TimedReq.Proofs.Expr.Cases
import TimedReq.Proofs.Expr.Reprint
import TimedReq.Proofs.Expr.Height
import TimedReq.Proofs.Expr.Calls
import TimedReq.Proofs.Text.Reflow
import TimedReq.Proofs.Bound.Reflow
import TimedReq.Proofs.Text.Steady
import TimedReq.Proofs.Text.Respaced
import TimedReq.Proofs.Text.Spaced
import TimedReq.Proofs.Expr.Respaced
import TimedReq.Proofs.Expr.Laid
import TimedReq.Proofs.Expr.Delimited
import TimedReq.Proofs.Expr.Loosened
import TimedReq.Proofs.Vhdl.Respaced
import TimedReq.Proofs.Vhdl.Loose
import TimedReq.Proofs.Expr.Standalone
import TimedReq.Proofs.Text.Brackets
import TimedReq.Proofs.Expr.Brackets
import TimedReq.Proofs.Vhdl.Keyword
import TimedReq.Proofs.Vhdl.Viable
import TimedReq.Proofs.Expr.PreOrder
import TimedReq.Proofs.Document.Grouping
import TimedReq.Proofs.Bound.Written
import TimedReq.Proofs.Vhdl.Pattern
import TimedReq.Proofs.Vhdl.Longest
import TimedReq.Proofs.Vhdl.MaximalMunch
import TimedReq.Proofs.Expr.Subexpressions
import TimedReq.Proofs.Expr.Reached
import TimedReq.Proofs.Expr.QuantifierDepth
import TimedReq.Proofs.Document.Statistics
import TimedReq.Proofs.Text.Slices
