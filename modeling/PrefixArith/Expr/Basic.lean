import PrefixArith.Numeral
import PrefixArith.Operator

/-!
# Expressions

An expression is a number, an operator by itself or a parenthesized group of expressions, in any
order. Which groups have a value is left to evaluation; every expression has a text.
-/

namespace PrefixArith

/-- An expression tree. -/
inductive Expr where
  | number (value : Binary64)
  | operator (op : Operator)
  | group (members : List Expr)

namespace Expr

mutual

/-- The text of an expression: one space between the members of a group. -/
def text : Expr → List Char
  | number value => Numeral.plain.text value
  | operator op => op.symbol.toList
  | group members => '(' :: [' '].intercalate (texts members) ++ [')']

/-- The texts of several expressions. -/
def texts : List Expr → List (List Char)
  | [] => []
  | first :: rest => text first :: texts rest

end

/-- A phrase that names an expression in a message. -/
def describe : Expr → String
  | number value => "number " ++ String.ofList (Numeral.plain.text value)
  | operator op => "operator `" ++ op.symbol ++ "`"
  | group [] => "empty group"
  | group (first :: rest) => "group `" ++ String.ofList (group (first :: rest)).text ++ "`"

mutual

/-- Equality of trees, with numbers compared by value, so that NaN differs from itself. -/
def equal : Expr → Expr → Bool
  | number left, number right => left.equal right
  | operator left, operator right => left == right
  | group left, group right => equalMembers left right
  | _, _ => false

/-- Equality of the members of two groups, in order. -/
def equalMembers : List Expr → List Expr → Bool
  | [], [] => true
  | left :: lefts, right :: rights => equal left right && equalMembers lefts rights
  | _, _ => false

end

end Expr

end PrefixArith
