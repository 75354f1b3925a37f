import PrefixArith.Binary64.Basic

/-!
# Operators

The four operators of prefix arithmetic, their symbols, and how each combines an accumulated result
with the next operand. The arity is the least number of operands that an application must supply.
-/

namespace PrefixArith

/-- An operator, in the order of the table. -/
inductive Operator where
  | add
  | subtract
  | max
  | min
  deriving DecidableEq

namespace Operator

/-- The table of all operators. -/
def all : List Operator := [add, subtract, max, min]

/-- The word that names an operator. -/
def symbol : Operator → String
  | add => "+"
  | subtract => "-"
  | max => "max"
  | min => "min"

/-- The least number of operands. -/
def arity : Operator → Nat
  | add => 1
  | subtract => 2
  | max => 1
  | min => 1

/-- The operator that a word names. -/
def ofSymbol? (word : String) : Option Operator :=
  all.find? fun op => op.symbol == word

/--
The result of an operator after one more operand. A comparison that fails, as every one with NaN
does, takes the new operand.
-/
def combine : Operator → Binary64 → Binary64 → Binary64
  | add, result, operand => result.add operand
  | subtract, result, operand => result.sub operand
  | max, result, operand => if operand.less result then result else operand
  | min, result, operand => if result.less operand then result else operand

/-- The result for no operand: a sum is zero, the others have none. -/
def start : Operator → Option Binary64
  | add => some .zero
  | _ => none

/-- The result with one more operand, which is the result where it is the first. -/
def extend (op : Operator) (result : Option Binary64) (operand : Binary64) : Binary64 :=
  match result with
  | none => operand
  | some value => op.combine value operand

/-- An operator as a record of its symbol and arity. -/
def record (op : Operator) : String :=
  "Operator \x7b symbol: \"" ++ op.symbol ++ "\", arity: " ++ toString op.arity ++ " \x7d"

end Operator

end PrefixArith
