import PrefixArith.Expr.Reading
import PrefixArith.Failure
import PrefixArith.Value.Reading

/-!
# The calculator

A calculator reads a text as an expression and evaluates it. It keeps no state but its settings, and
it evaluates nothing of a text that is not an expression.
-/

namespace PrefixArith

/-- A calculator with its settings. -/
structure Calculator where
  settings : Settings

namespace Calculator

/-- The calculator with the standard settings. -/
def standard : Calculator := ⟨.standard⟩

/-- Reads a text as an expression. -/
def read (calculator : Calculator) (text : String) : Except Malformed Expr :=
  Expr.read calculator.settings.maxDepth text

/-- The value of the expression that a text holds. -/
def evaluate (calculator : Calculator) (text : String) : Except Failure Value :=
  match calculator.read text with
  | .error fault => .error (.reading fault)
  | .ok expr => expr.eval.mapError .evaluation

/-- Reads a value from a JSON text, which comes with the place where it is refused if it is. -/
def readValue (text : List Char) (place : Option Json.Place) : Except Failure Value :=
  (Value.read text).mapError fun rejection => .settings (.inText rejection place)

end Calculator

end PrefixArith
