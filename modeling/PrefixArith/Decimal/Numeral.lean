import PrefixArith.Binary64.Basic
import PrefixArith.Text.Basic

/-!
# Decimal numerals

A decimal numeral is an optional sign, digits with at most one point and at least one digit, and an
optional exponent. It denotes an exact rational, which is rounded once to a double however many
digits it has.
-/

namespace PrefixArith

namespace Decimal

/-- A power of ten. -/
def power (exponent : Nat) : Nat :=
  Nat.pow 10 exponent

/-- The value of an ASCII digit. -/
def digitValue (digit : Char) : Nat :=
  digit.toNat - '0'.toNat

/-- The natural number that a word of ASCII digits denotes. -/
def ofDigits (digits : List Char) : Nat :=
  Text.ofDigits 10 (digits.map digitValue)

/--
The magnitude nearest to `significand * 10 ^ exponent`. An exponent of 310 overflows whatever
positive number it scales, and a negative one underflows as soon as `8 ^ -exponent` does, so no
power of ten is computed that is larger than the significand warrants.
-/
def magnitude (significand : Nat) : Int → Magnitude
  | .ofNat exponent =>
      if significand = 0 then .zero
      else if 310 ≤ exponent then .infinity
      else .ofNat (significand * power exponent)
  | .negSucc exponent =>
      if significand.log2 + 1077 ≤ 3 * (exponent + 1) then .zero
      else .ofRatio significand (power (exponent + 1))

/-- A numeral: `significand * 10 ^ exponent` under a sign. -/
structure Numeral where
  negative : Bool
  significand : Nat
  exponent : Int
  deriving DecidableEq

namespace Numeral

/-- The double nearest to a numeral; a zero keeps the sign. -/
def toBinary64 (numeral : Numeral) : Binary64 :=
  .signed numeral.negative (magnitude numeral.significand numeral.exponent)

/-- Takes an optional sign from the front; `true` stands for a minus. -/
def takeSign : List Char → Bool × List Char
  | '+' :: rest => (false, rest)
  | '-' :: rest => (true, rest)
  | text => (false, text)

/-- Reads the whole text as an optional sign and at least one digit. -/
def integer? (text : List Char) : Option Int :=
  let (negative, digits) := takeSign text
  if digits.isEmpty || !digits.all Char.isDigit then none
  else if negative then some (-(ofDigits digits : Int))
  else some (ofDigits digits)

/-- Reads the whole text as an exponent part: nothing, or a mark and an integer. -/
def exponent? : List Char → Option Int
  | [] => some 0
  | mark :: text => if mark = 'e' || mark = 'E' then integer? text else none

/-- Splits a fraction, which a point opens, from the front. -/
def takeFraction : List Char → List Char × List Char
  | '.' :: rest => (rest.takeWhile Char.isDigit, rest.dropWhile Char.isDigit)
  | text => ([], text)

/-- Reads the whole text as a numeral. -/
def read? (text : List Char) : Option Numeral :=
  let (negative, unsigned) := takeSign text
  let whole := unsigned.takeWhile Char.isDigit
  let (fraction, rest) := takeFraction (unsigned.dropWhile Char.isDigit)
  if whole.isEmpty && fraction.isEmpty then none
  else (exponent? rest).map fun exponent =>
    ⟨negative, ofDigits (whole ++ fraction), exponent - fraction.length⟩

end Numeral

end Decimal

end PrefixArith
