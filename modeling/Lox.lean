import Lox.Line
import Lox.Numeric.Layout
import Lox.Text.Utf8
import Lox.Text.Quoted
import Lox.Text.Form
import Lox.Diagnostic
import Lox.Item
import Lox.Scan
import Lox.Cursor
import Lox.Positional
import Lox.Expr.Text
import Lox.CommandLine.Session
import Lox.Main
import Lox.Proofs.MaximalMunch
import Lox.Proofs.Rendering
import Lox.Proofs.Repair
import Lox.Proofs.Modes
import Lox.Proofs.Lines
import Lox.Proofs.Position
import Lox.Proofs.Positional
import Lox.Proofs.Input
import Lox.Proofs.Script
import Lox.Proofs.Prompt
import Lox.Proofs.Newline
import Lox.Proofs.LineByLine
import Lox.Proofs.Listing
import Lox.Proofs.Dialects
import Lox.Proofs.Rounding
import Lox.Proofs.Numeral
import Lox.Proofs.Literals
import Lox.Proofs.Splits
import Lox.Proofs.Plain
import Lox.Proofs.Flattening
import Lox.Proofs.ReadBack
import Lox.Proofs.Places
import Lox.Proofs.Lookahead
import Lox.Proofs.Reporters
import Lox.Proofs.Comments
import Lox.Proofs.StringBodies
import Lox.Proofs.Words
import Lox.Proofs.LineEndings
import Lox.Proofs.UniqueReading
import Lox.Proofs.Equality
import Lox.Proofs.LogText
import Lox.Proofs.Coincidence
import Lox.Proofs.Stretches
import Lox.Proofs.Restart
