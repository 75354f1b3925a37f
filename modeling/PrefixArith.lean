import PrefixArith.Binary64.Basic
import PrefixArith.Calculator
import PrefixArith.CommandLine.Report
import PrefixArith.Main
import PrefixArith.Proofs.Binary64.Nearest
import PrefixArith.Proofs.Binary64.Rounding
import PrefixArith.Proofs.Decimal.Grammar
import PrefixArith.Proofs.Decimal.Magnitude
import PrefixArith.Proofs.Decimal.Positional
import PrefixArith.Proofs.Decimal.Shortest
import PrefixArith.Proofs.Expr.RoundTrip
import PrefixArith.Proofs.Expr.Shape
import PrefixArith.Proofs.Expr.Spelling
import PrefixArith.Proofs.Numeral
import PrefixArith.Proofs.Token.Division
import PrefixArith.Proofs.Token.Partition
import PrefixArith.Proofs.Token.Tidying
import PrefixArith.Proofs.Binary64.Addition
import PrefixArith.Proofs.Binary64.Order
import PrefixArith.Proofs.Binary64.Integer
import PrefixArith.Proofs.Expr.Extreme
import PrefixArith.Proofs.Expr.Flattening
import PrefixArith.Proofs.Decimal.Whole
import PrefixArith.Proofs.Expr.Exact
import PrefixArith.Proofs.Expr.Outcome
import PrefixArith.Proofs.Expr.Scan
import PrefixArith.Proofs.Expr.Culprit
import PrefixArith.Proofs.Expr.Threshold
import PrefixArith.Proofs.Expr.Spacing
import PrefixArith.Proofs.Expr.Replacement
import PrefixArith.Proofs.CommandLine.Lines
import PrefixArith.Proofs.CommandLine.Interchange
import PrefixArith.Proofs.CommandLine.Run
import PrefixArith.Proofs.Settings.Message
import PrefixArith.Proofs.Numeral.Literal
import PrefixArith.Proofs.Numeral.Language
import PrefixArith.Proofs.Binary64.Neighbours
import PrefixArith.Proofs.Numeral.Accumulation
import PrefixArith.Proofs.Numeral.Integer
import PrefixArith.Proofs.CommandLine.Blank
import PrefixArith.Proofs.CommandLine.Caret
import PrefixArith.Proofs.Expr.Canonical
import PrefixArith.Proofs.Decimal.Fewest
import PrefixArith.Proofs.Decimal.Tie
import PrefixArith.Proofs.Decimal.Layout
import PrefixArith.Proofs.Value.Number
import PrefixArith.Proofs.Binary64.Closeness
import PrefixArith.Proofs.Decimal.Range
import PrefixArith.Proofs.Json.Number
import PrefixArith.Proofs.Json.Tree
import PrefixArith.Proofs.Value.Json
import PrefixArith.Proofs.Expr.Segment
import PrefixArith.Proofs.Value.Plain
import PrefixArith.Proofs.Json.Grammar
import PrefixArith.Proofs.Json.Skip
import PrefixArith.Proofs.Settings.Object
