import PrefixArith.Binary64.Basic
import PrefixArith.Decimal.Shortest

/-!
# Layouts of decimals

The text of a double is its shortest decimal, set out as a layout says: positionally, with zeros up
to the point, or as one digit, a fraction and an exponent. A layout also fixes the texts of the
values that have no decimal.
-/

namespace PrefixArith

namespace Decimal

/-- The decisions that turn a shortest decimal into text. -/
structure Layout where
  /-- Which of two equally near shortest decimals is written. -/
  tie : Tie
  /-- Whether a decimal with a given exponent of its first digit is written positionally. -/
  positional : Int → Bool
  /-- What follows the digits of a whole number that is written positionally. -/
  wholeMark : List Char
  nan : List Char
  infinity : List Char
  negativeInfinity : List Char

/-- The decimal digits of a natural number, without leading zeros. -/
def digits (value : Nat) : List Char :=
  Nat.toDigits 10 value

/-- A run of zeros. -/
def zeros (count : Nat) : List Char :=
  List.replicate count '0'

namespace Scientific

/-- The exponent of the first digit. -/
def leading (decimal : Scientific) : Int :=
  decimal.exponent + (digits decimal.significand).length - 1

/-- The positional text: zeros fill the gap between the digits and the point. -/
def positionalText (wholeMark : List Char) (decimal : Scientific) : List Char :=
  let word := digits decimal.significand
  match decimal.exponent with
  | .ofNat after => word ++ zeros after ++ wholeMark
  | .negSucc before =>
      let fraction := before + 1
      if fraction < word.length then
        word.take (word.length - fraction) ++ '.' :: word.drop (word.length - fraction)
      else '0' :: '.' :: zeros (fraction - word.length) ++ word

/-- The text with one digit before the point and a signed exponent. -/
def exponentText (decimal : Scientific) : List Char :=
  let mantissa :=
    match digits decimal.significand with
    | first :: second :: rest => first :: '.' :: second :: rest
    | word => word
  let sign := if decimal.leading < 0 then '-' else '+'
  mantissa ++ 'e' :: sign :: digits decimal.leading.natAbs

end Scientific

namespace Layout

/-- The text of a finite magnitude. -/
def magnitudeText (layout : Layout) (magnitude : Magnitude) : List Char :=
  let decimal := shortest layout.tie magnitude
  if layout.positional decimal.leading then decimal.positionalText layout.wholeMark
  else decimal.exponentText

/-- The text of a double. -/
def text (layout : Layout) : Binary64 → List Char
  | .nan => layout.nan
  | .signed negative magnitude =>
      if magnitude.isFinite then
        if negative then '-' :: layout.magnitudeText magnitude else layout.magnitudeText magnitude
      else if negative then layout.negativeInfinity
      else layout.infinity

end Layout

end Decimal

end PrefixArith
