import TurtleLogo.CommandLine
import TurtleLogo.Eval
import TurtleLogo.Eval.Arithmetic
import TurtleLogo.Eval.Builtin
import TurtleLogo.Eval.Exec
import TurtleLogo.Eval.Feed
import TurtleLogo.Eval.Inputs
import TurtleLogo.Eval.Load
import TurtleLogo.Eval.Primitive
import TurtleLogo.Fault
import TurtleLogo.FileStore
import TurtleLogo.Main
import TurtleLogo.Node
import TurtleLogo.Node.Parser
import TurtleLogo.Number.Decimal
import TurtleLogo.Number.Numeral
import TurtleLogo.Number.Power
import TurtleLogo.Number.Remainder
import TurtleLogo.Number.Shape
import TurtleLogo.Number.Text
import TurtleLogo.Program
import TurtleLogo.Report
import TurtleLogo.Session
import TurtleLogo.Shell
import TurtleLogo.Table
import TurtleLogo.Text.CaseRun
import TurtleLogo.Text.Digit
import TurtleLogo.Text.Lower
import TurtleLogo.Text.Message
import TurtleLogo.Text.Printable
import TurtleLogo.Text.Quoted
import TurtleLogo.Text.Style
import TurtleLogo.Text.Trim
import TurtleLogo.Text.Upper
import TurtleLogo.Text.Utf8
import TurtleLogo.Token
import TurtleLogo.Token.Lexer
import TurtleLogo.Turtle
import TurtleLogo.Window
import TurtleLogo.Workspace
import TurtleLogo.Proofs.Eval.Keeps
import TurtleLogo.Proofs.Eval.Stacks
import TurtleLogo.Proofs.Eval.Likeness
import TurtleLogo.Proofs.Eval.Remainder
import TurtleLogo.Proofs.Parser.Columns
import TurtleLogo.Proofs.Eval.Continuation
import TurtleLogo.Proofs.Lexer.Printed
import TurtleLogo.Proofs.Node.Printing
import TurtleLogo.Proofs.Eval.Scopes
import TurtleLogo.Proofs.Eval.Depth
import TurtleLogo.Proofs.Eval.InPlace
import TurtleLogo.Proofs.Eval.Definitions
import TurtleLogo.Proofs.Node.Values
import TurtleLogo.Proofs.Eval.Values
import TurtleLogo.Proofs.Eval.Loading
import TurtleLogo.Proofs.Eval.WriteOnly
import TurtleLogo.Proofs.Session.Refinement
import TurtleLogo.Proofs.Eval.Rereading
import TurtleLogo.Proofs.Eval.Source
import TurtleLogo.Proofs.Parser.Margin
import TurtleLogo.Proofs.Lexer.Trimmed
import TurtleLogo.Proofs.Parser.Spaces
import TurtleLogo.Proofs.Parser.Chains
import TurtleLogo.Proofs.Parser.Contents
import TurtleLogo.Proofs.Parser.Blame
import TurtleLogo.Proofs.Parser.Brackets
import TurtleLogo.Proofs.Parser.Blanks
import TurtleLogo.Proofs.Parser.Locality
import TurtleLogo.Proofs.Parser.Differences
import TurtleLogo.Proofs.Eval.Accounting
import TurtleLogo.Proofs.Number.Rounding
import TurtleLogo.Proofs.Number.Doubles
import TurtleLogo.Proofs.Number.Shortest
import TurtleLogo.Proofs.Number.Numerals
import TurtleLogo.Proofs.Node.Retyped
import TurtleLogo.Proofs.Eval.Listing
import TurtleLogo.Proofs.Eval.Inputs
import TurtleLogo.Proofs.Number.Whole
import TurtleLogo.Proofs.Eval.Counting
import TurtleLogo.Proofs.Eval.Routines
import TurtleLogo.Proofs.Eval.Traces
import TurtleLogo.Proofs.Session.Places
import TurtleLogo.Proofs.Lexer.Escapes
import TurtleLogo.Proofs.Lexer.Endings
import TurtleLogo.Proofs.Lexer.Shape
import TurtleLogo.Proofs.Lexer.Strangers
import TurtleLogo.Proofs.Lexer.Spelling
import TurtleLogo.Proofs.Eval.Purity
import TurtleLogo.Proofs.Eval.Blocks
import TurtleLogo.Proofs.Eval.Binding
import TurtleLogo.Proofs.Eval.Atomicity
import TurtleLogo.Proofs.Eval.LoadTraces
import TurtleLogo.Proofs.Eval.Carets
import TurtleLogo.Proofs.Eval.Items
import TurtleLogo.Proofs.Turtle.Headings
import TurtleLogo.Proofs.Parser.Watch
import TurtleLogo.Proofs.Parser.Progress
import TurtleLogo.Proofs.Parser.Demands
