import PrefixArith.Binary64.Magnitude

/-!
# Doubles

A double is a signed magnitude or the one value that is not a number. Sums and differences are the
exact results rounded once, to nearest with ties to even; the comparison is the numeric one, under
which both zeros are equal and NaN is equal to nothing.
-/

namespace PrefixArith

/-- A double; which of the NaNs it is cannot be observed. -/
inductive Binary64 where
  | nan
  | signed (negative : Bool) (magnitude : Magnitude)
  deriving DecidableEq

namespace Binary64

/-- The zero without a sign. -/
def zero : Binary64 := .signed false .zero

/-- A double other than NaN and the infinities. -/
def isFinite : Binary64 → Bool
  | .nan => false
  | .signed _ magnitude => magnitude.isFinite

/-- The double with the other sign. -/
def neg : Binary64 → Binary64
  | .nan => .nan
  | .signed negative magnitude => .signed (!negative) magnitude

/-- The signed number of units of a finite double. -/
def signedUnits (negative : Bool) (magnitude : Magnitude) : Int :=
  if negative then -magnitude.units else magnitude.units

/--
The double nearest to a whole number of units. The sign of a zero is that of the operands when they
agree, and plus otherwise.
-/
def ofUnits (zeroNegative : Bool) (count : Int) : Binary64 :=
  if count = 0 then .signed zeroNegative .zero
  else .signed (decide (count < 0)) (.nearest count.natAbs 1)

/-- The rounded sum; opposite infinities have none. -/
def add : Binary64 → Binary64 → Binary64
  | .signed leftNegative left, .signed rightNegative right =>
      if left.isFinite && right.isFinite then
        ofUnits (leftNegative && rightNegative)
          (signedUnits leftNegative left + signedUnits rightNegative right)
      else if right.isFinite then .signed leftNegative left
      else if left.isFinite || leftNegative == rightNegative then .signed rightNegative right
      else .nan
  | _, _ => .nan

/-- The rounded difference. -/
def sub (left right : Binary64) : Binary64 :=
  add left right.neg

/-- The place of a double in the row of both signs, where both zeros share place 0. -/
def order (negative : Bool) (magnitude : Magnitude) : Int :=
  if negative then -magnitude.place else magnitude.place

/-- The strict numeric comparison, false of NaN. -/
def less : Binary64 → Binary64 → Bool
  | .signed leftNegative left, .signed rightNegative right =>
      order leftNegative left < order rightNegative right
  | _, _ => false

/-- The numeric equality, false of NaN. -/
def equal : Binary64 → Binary64 → Bool
  | .signed leftNegative left, .signed rightNegative right =>
      order leftNegative left == order rightNegative right
  | _, _ => false

end Binary64

end PrefixArith
