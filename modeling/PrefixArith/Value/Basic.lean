import PrefixArith.Json.Number
import PrefixArith.Numeral

/-!
# Values

What an expression evaluates to: a number, or a list of values. A value has a plain text and a JSON
text, which differ in how numbers are laid out and in the space after a comma.
-/

namespace PrefixArith

/-- The value of an expression. -/
inductive Value where
  | number (value : Binary64)
  | list (items : List Value)

namespace Value

/-- The number that a value is, unless it is a list. -/
def asNumber? : Value → Option Binary64
  | number value => some value
  | list _ => none

/-- A list of numbers. -/
def ofNumbers (numbers : List Binary64) : Value :=
  list (numbers.map number)

mutual

/-- The text of a value, with its numbers in a layout and its items apart by a separator. -/
def layoutText (layout : Decimal.Layout) (separator : List Char) : Value → List Char
  | number value => layout.text value
  | list items => '[' :: separator.intercalate (layoutTexts layout separator items) ++ [']']

/-- The texts of several values. -/
def layoutTexts (layout : Decimal.Layout) (separator : List Char) : List Value → List (List Char)
  | [] => []
  | first :: rest => layoutText layout separator first :: layoutTexts layout separator rest

end

/-- The plain text, such as `[1, [2, 3]]`. -/
def text (value : Value) : List Char :=
  layoutText Numeral.plain [',', ' '] value

/-- The JSON text, such as `[1.0,[2.0,3.0]]`. -/
def json (value : Value) : List Char :=
  layoutText Json.numberLayout [','] value

end Value

end PrefixArith
