import PrefixArith.Decimal.Layout
import PrefixArith.Json.Fault

/-!
# Numbers of JSON

A number is read in two steps: its parts are taken from the text, then they are given a value. An
integer of 64 bits is exact. Any other number is a significand of 64 bits, which counts the digits
that do not fit without reading them, multiplied or divided by powers of ten in doubles; each such
step rounds, so the value can differ from the nearest double in its last bits.
-/

namespace PrefixArith

namespace Json

/--
How numbers are written: positionally while the exponent of the first digit is from -5 to 15, with a
fraction even when they are whole, and with a signed exponent otherwise. JSON has no word for NaN and
the infinities, which become null. Of two shortest decimals the even one is taken.
-/
def numberLayout : Decimal.Layout where
  tie := .even
  positional exponent := -5 ≤ exponent && exponent ≤ 15
  wholeMark := ['.', '0']
  nan := "null".toList
  infinity := "null".toList
  negativeInfinity := "null".toList

/-- The value of a number: an integer as far as 64 bits hold it, and a double otherwise. -/
inductive Number where
  | integer (value : Int)
  | real (value : Binary64)
  deriving DecidableEq

namespace Number

/-- The parts of a number as they are written. -/
structure Parts where
  negative : Bool
  whole : List Char
  fraction : Option (List Char)
  exponent : Option Int

/--
Takes digits, at least one, from the front. Where there are none, `missing` is the fault at the end
of the text and a malformed number is the fault before it.
-/
def takeDigits (missing : Fault) (text : List Char) : Except Fault (List Char × List Char) :=
  match text with
  | [] => .error missing
  | first :: rest =>
      if first.isDigit then
        .ok (first :: rest.takeWhile Char.isDigit, rest.dropWhile Char.isDigit)
      else .error .badNumber

theorem takeDigits_length_lt {missing : Fault} {text digits after : List Char}
    (taken : takeDigits missing text = .ok (digits, after)) : after.length < text.length := by
  unfold takeDigits at taken
  split at taken
  · cases taken
  · split at taken
    · cases taken
      exact Nat.lt_succ_of_le (List.dropWhile_suffix _).length_le
    · cases taken

/-- Takes the digits before the point: a zero by itself, or digits that start with another one. -/
def takeWhole (missing : Fault) (text : List Char) : Except Fault (List Char × List Char) :=
  match takeDigits missing text with
  | .error fault => .error fault
  | .ok (digits, rest) =>
      if digits.head? = some '0' ∧ digits.length ≠ 1 then .error .badNumber
      else .ok (digits, rest)

theorem takeWhole_length_lt {missing : Fault} {text digits after : List Char}
    (taken : takeWhole missing text = .ok (digits, after)) : after.length < text.length := by
  unfold takeWhole at taken
  split at taken
  · cases taken
  · rename_i found
    split at taken
    · cases taken
    · cases taken
      exact takeDigits_length_lt found

/-- Takes a fraction, if a point opens one. -/
def takeFraction (missing : Fault) :
    List Char → Except Fault (Option (List Char) × List Char)
  | [] => .ok (none, [])
  | first :: rest =>
      if first = '.' then
        (takeDigits missing rest).map fun found => (some found.1, found.2)
      else .ok (none, first :: rest)

theorem takeFraction_length_le {missing : Fault} {text after : List Char}
    {fraction : Option (List Char)}
    (taken : takeFraction missing text = .ok (fraction, after)) : after.length ≤ text.length := by
  unfold takeFraction at taken
  split at taken
  · cases taken
    exact Nat.le_refl _
  · rename_i first rest
    split at taken
    · cases found : takeDigits missing rest with
      | error fault =>
          rw [found] at taken
          cases taken
      | ok result =>
          rw [found] at taken
          cases taken
          exact Nat.le_succ_of_le (Nat.le_of_lt (takeDigits_length_lt found))
    · cases taken
      exact Nat.le_refl _

/-- Takes an exponent, if a mark opens one. -/
def takeExponent (missing : Fault) : List Char → Except Fault (Option Int × List Char)
  | [] => .ok (none, [])
  | first :: rest =>
      if first = 'e' ∨ first = 'E' then
        let signed := Decimal.Numeral.takeSign rest
        (takeDigits missing signed.2).map fun found =>
          let size : Int := Decimal.ofDigits found.1
          (some (if signed.1 then -size else size), found.2)
      else .ok (none, first :: rest)

theorem takeExponent_length_le {missing : Fault} {text after : List Char} {exponent : Option Int}
    (taken : takeExponent missing text = .ok (exponent, after)) : after.length ≤ text.length := by
  unfold takeExponent at taken
  split at taken
  · cases taken
    exact Nat.le_refl _
  · rename_i first rest
    split at taken
    · have unsigned : (Decimal.Numeral.takeSign rest).2.length ≤ rest.length := by
        unfold Decimal.Numeral.takeSign
        split <;> simp
      cases found : takeDigits missing (Decimal.Numeral.takeSign rest).2 with
      | error fault =>
          simp only [found] at taken
          cases taken
      | ok result =>
          simp only [found] at taken
          cases taken
          have := takeDigits_length_lt found
          simp only [List.length_cons]
          omega
    · cases taken
      exact Nat.le_refl _

/-- Takes a minus sign, if there is one. -/
def takeMinus : List Char → Bool × List Char
  | [] => (false, [])
  | first :: rest => if first = '-' then (true, rest) else (false, first :: rest)

theorem takeMinus_length_le (text : List Char) : (takeMinus text).2.length ≤ text.length := by
  unfold takeMinus
  split
  · exact Nat.le_refl _
  · split
    · exact Nat.le_succ _
    · exact Nat.le_refl _

/-- Takes the parts of a number from the front of a text. -/
def takeParts (missing : Fault) (text : List Char) : Except Fault (Parts × List Char) :=
  let signed := takeMinus text
  match takeWhole missing signed.2 with
  | .error fault => .error fault
  | .ok (whole, afterWhole) =>
      match takeFraction missing afterWhole with
      | .error fault => .error fault
      | .ok (fraction, afterFraction) =>
          match takeExponent missing afterFraction with
          | .error fault => .error fault
          | .ok (exponent, after) => .ok (⟨signed.1, whole, fraction, exponent⟩, after)

theorem takeParts_length_lt {missing : Fault} {text after : List Char} {parts : Parts}
    (taken : takeParts missing text = .ok (parts, after)) : after.length < text.length := by
  unfold takeParts at taken
  simp only at taken
  split at taken
  · cases taken
  · rename_i whole
    split at taken
    · cases taken
    · rename_i fraction
      split at taken
      · cases taken
      · rename_i exponent
        cases taken
        have := takeMinus_length_le text
        have := takeWhole_length_lt whole
        have := takeFraction_length_le fraction
        have := takeExponent_length_le exponent
        omega

/--
Appends digits to a significand while it fits in 64 bits. The second result is the number of digits
from the first that does not fit on.
-/
def gather (significand : Nat) : List Char → Nat × Nat
  | [] => (significand, 0)
  | digit :: rest =>
      let next := 10 * significand + Decimal.digitValue digit
      if next < UInt64.size then gather next rest else (significand, rest.length + 1)

/-- The exponent of the largest power of ten that a double holds. -/
def largestPower : Nat := 308

/-- The double nearest to a power of ten. -/
def powerOfTen (exponent : Nat) : Magnitude :=
  .ofNat (Decimal.power exponent)

/--
Divides by a power of ten, the largest one as often as it takes. Zero stays zero whatever is left
to divide by.
-/
def scaleDown (magnitude : Magnitude) (exponent : Nat) : Magnitude :=
  if exponent ≤ largestPower then magnitude.div (powerOfTen exponent)
  else if magnitude.place = 0 then magnitude
  else scaleDown (magnitude.div (powerOfTen largestPower)) (exponent - largestPower)
  termination_by exponent
  decreasing_by
    unfold largestPower
    unfold largestPower at *
    omega

/-- A significand times a power of ten, unless that overflows. -/
def scale (significand : Nat) : Int → Except Fault Magnitude
  | .negSucc exponent => .ok (scaleDown (.ofNat significand) (exponent + 1))
  | .ofNat exponent =>
      if exponent ≤ largestPower then
        let scaled := (Magnitude.ofNat significand).mul (powerOfTen exponent)
        if scaled.isFinite then .ok scaled else .error .numberOutOfRange
      else if significand = 0 then .ok .zero
      else .error .numberOutOfRange

/-- The integer under a sign, if 64 bits hold it; a negative zero is not an integer. -/
def integer? (negative : Bool) (size : Nat) : Option Int :=
  if !negative then some size
  else if 1 ≤ size ∧ size ≤ UInt64.size / 2 then some (-(size : Int))
  else none

/-- The value of a number from its parts. -/
def ofParts (parts : Parts) : Except Fault Number :=
  let (wholeSignificand, dropped) := gather 0 parts.whole
  let real (significand : Nat) (exponent : Int) : Except Fault Number :=
    (scale significand exponent).map fun magnitude => .real (.signed parts.negative magnitude)
  match parts.fraction with
  | some fraction =>
      let (significand, unread) := gather wholeSignificand fraction
      real significand (dropped - (fraction.length - unread : Nat) + parts.exponent.getD 0)
  | none =>
      match parts.exponent with
      | some exponent => real wholeSignificand (dropped + exponent)
      | none =>
          if dropped ≠ 0 then real wholeSignificand dropped
          else
            match integer? parts.negative wholeSignificand with
            | some value => .ok (.integer value)
            | none => .ok (.real (.signed parts.negative (.ofNat wholeSignificand)))

/-- Reads a number from the front of a text. -/
def read (text : List Char) : Except Fault (Number × List Char) :=
  match takeParts .endInValue text with
  | .error fault => .error fault
  | .ok (parts, after) => (ofParts parts).map fun number => (number, after)

theorem read_length_lt {text after : List Char} {number : Number}
    (found : read text = .ok (number, after)) : after.length < text.length := by
  unfold read at found
  split at found
  · cases found
  · rename_i parts middle taken
    cases value : ofParts parts with
    | error fault =>
        rw [value] at found
        cases found
    | ok result =>
        rw [value] at found
        cases found
        exact takeParts_length_lt taken

/-- Passes over a number; its size does not matter, and it may not end before its last digit. -/
def skip (text : List Char) : Except Fault (List Char) :=
  (takeParts .badNumber text).map (·.2)

theorem skip_length_lt {text after : List Char} (skipped : skip text = .ok after) :
    after.length < text.length := by
  unfold skip at skipped
  cases taken : takeParts .badNumber text with
  | error fault =>
      rw [taken] at skipped
      cases skipped
  | ok result =>
      rw [taken] at skipped
      cases skipped
      exact takeParts_length_lt taken

/-- The double nearest to a number. -/
def toBinary64 : Number → Binary64
  | integer value => .signed (decide (value < 0)) (.ofNat value.natAbs)
  | real value => value

end Number

end Json

end PrefixArith
