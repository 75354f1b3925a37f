import PrefixArith.Expr.Basic
import PrefixArith.Value.Basic

/-!
# Evaluation

A group that an operator heads is an application of it, a group that a number heads is the list of
its members' values, and no other group has a value. Operands are evaluated from left to right while
the operator consumes them, so that the first one without a number is the fault.
-/

namespace PrefixArith

/-- The reason why an expression has no value. -/
inductive Undefined where
  /-- An application supplies fewer operands than the arity. -/
  | tooFewOperands (op : Operator) (supplied : Nat)
  /-- A group is empty or has a group at its head; the expression is the one that stands there. -/
  | unknownHead (head : Expr)
  /-- An operator stands where a value is due. -/
  | bareOperator (op : Operator)
  /-- An operand is a list. -/
  | listOperand (op : Operator)

namespace Undefined

/-- What is told of a fault: its kind, with words for the operators and expressions at fault. -/
inductive Notice where
  | insufficientOperands (operator : String) (required supplied : Nat)
  | unknownNodeType (description : String)
  | unexpectedNode (description : String)
  | expectedNumber (operator : String)
  deriving DecidableEq

def Notice.message : Notice → String
  | insufficientOperands operator required supplied =>
      "Not sufficient operands to apply operator " ++ operator ++ ": expected at least " ++
        toString required ++ ", got " ++ toString supplied
  | unknownNodeType description => "Unknown node type: " ++ description
  | unexpectedNode description => "Unexpected node: " ++ description
  | expectedNumber operator =>
      "Operand of " ++ operator ++ " evaluated to a list, expected a number"

/-- What is told of a fault. -/
def notice : Undefined → Notice
  | tooFewOperands op supplied => .insufficientOperands op.symbol op.arity supplied
  | unknownHead head => .unknownNodeType head.describe
  | bareOperator op => .unexpectedNode (Expr.operator op).describe
  | listOperand op => .expectedNumber op.symbol

def message (fault : Undefined) : String :=
  fault.notice.message

end Undefined

/-- The number that an operand of an operator has for its value. -/
def Value.operandOf (op : Operator) : Value → Except Undefined Binary64
  | number value => .ok value
  | list _ => .error (.listOperand op)

namespace Expr

mutual

/-- The value of an expression. -/
def eval : Expr → Except Undefined Value
  | number value => .ok (.number value)
  | operator op => .error (.bareOperator op)
  | group [] => .error (.unknownHead (group []))
  | group (operator op :: operands) =>
      if operands.length < op.arity then .error (.tooFewOperands op operands.length)
      else (accumulate op op.start operands).map .number
  | group (number value :: rest) =>
      (evalAll rest).map fun values => .list (.number value :: values)
  | group (group members :: _) => .error (.unknownHead (group members))

/-- The values of several expressions, or the first fault among them. -/
def evalAll : List Expr → Except Undefined (List Value)
  | [] => .ok []
  | first :: rest =>
      match eval first with
      | .error fault => .error fault
      | .ok value => (evalAll rest).map (value :: ·)

/-- The result of an operator from its result so far, if it has one, and the operands to come. -/
def accumulate (op : Operator) (result : Option Binary64) : List Expr → Except Undefined Binary64
  | [] =>
      match result with
      | some value => .ok value
      | none => .error (.tooFewOperands op 0)
  | first :: rest =>
      match eval first with
      | .error fault => .error fault
      | .ok value =>
          match value.operandOf op with
          | .error fault => .error fault
          | .ok operand => accumulate op (some (op.extend result operand)) rest

end

/-- The number that an expression has for its value as an operand of an operator. -/
def operand (op : Operator) (expr : Expr) : Except Undefined Binary64 :=
  match expr.eval with
  | .error fault => .error fault
  | .ok value => value.operandOf op

/-- The result of an operator for any number of operands. -/
def apply (op : Operator) (operands : List Expr) : Except Undefined Binary64 :=
  accumulate op op.start operands

end Expr

end PrefixArith
