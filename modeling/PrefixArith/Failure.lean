import PrefixArith.Expr.Evaluation
import PrefixArith.Expr.Malformed
import PrefixArith.Settings.File

/-!
# Failures

The reasons for which a calculation gives no result, each in the phase where it arises.
-/

namespace PrefixArith

/-- The reason why there is no result. -/
inductive Failure where
  /-- A text is not an expression. -/
  | reading (fault : Malformed)
  /-- An expression has no value. -/
  | evaluation (fault : Undefined)
  /-- There are no settings. -/
  | settings (fault : Settings.Fault)
  /-- A line of the input is not UTF-8. -/
  | input

namespace Failure

def message : Failure → String
  | reading fault => "Parsing failed: " ++ fault.message
  | evaluation fault => "Eval failed: " ++ fault.message
  | settings fault => "Config error: " ++ fault.message
  | input => "Internal error: Failed to read stdin: stream did not contain valid UTF-8"

/-- Whether a text was found not to be an expression. -/
def isReading : Failure → Bool
  | reading _ => true
  | _ => false

/-- Whether an expression was found to have no value. -/
def isEvaluation : Failure → Bool
  | evaluation _ => true
  | _ => false

/-- The position of the fault in the text of an expression. -/
def position? : Failure → Option Nat
  | reading fault => fault.position?
  | _ => none

end Failure

end PrefixArith
