import PrefixArith.Decimal.Layout
import PrefixArith.Decimal.Numeral
import PrefixArith.Text.Basic

/-!
# Numerals of expressions

A numeral is a decimal, or a hexadecimal, octal or binary integer after a marker such as `0x`. A
word that denotes no finite double is no numeral.
-/

namespace PrefixArith

namespace Numeral

/-- The base that follows a leading zero as a marker. -/
def base? : Char → Option Nat
  | 'x' | 'X' => some 16
  | 'o' | 'O' => some 8
  | 'b' | 'B' => some 2
  | _ => none

/-- The digits accumulated in doubles, rounding each product and each sum. -/
def accumulate (base : Nat) (digits : List Nat) : Magnitude :=
  digits.foldl (fun value digit => (value.mul (.ofNat base)).add (.ofNat digit)) .zero

/-- The magnitude of a digit word: rounded once up to 128 bits, accumulated beyond. -/
def integerMagnitude (base : Nat) (digits : List Nat) : Magnitude :=
  let value := Text.ofDigits base digits
  if value < 1 <<< 128 then .ofNat value else accumulate base digits

/-- Reads an unsigned integer with a base marker and at least one digit. -/
def marked? : List Char → Option Magnitude
  | '0' :: marker :: digits => do
      let base ← base? marker
      if digits.isEmpty then none
      else
        let values ← digits.mapM (Text.digit? base)
        some (integerMagnitude base values)
  | _ => none

/-- The double that a word denotes, infinite if it overflows. -/
def value? (word : List Char) : Option Binary64 :=
  match marked? word with
  | some magnitude => some (.signed false magnitude)
  | none => (Decimal.Numeral.read? word).map Decimal.Numeral.toBinary64

/-- Reads a whole word as a finite number. -/
def read? (word : List Char) : Option Binary64 :=
  (value? word).filter Binary64.isFinite

/--
Numbers are written positionally whatever their size, and whole ones without a point. Of two
shortest decimals the upper is taken.
-/
def plain : Decimal.Layout where
  tie := .up
  positional _ := true
  wholeMark := []
  nan := "NaN".toList
  infinity := "inf".toList
  negativeInfinity := "-inf".toList

end Numeral

end PrefixArith
