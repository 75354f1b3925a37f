/-!
# Magnitudes of doubles

The non-negative doubles, infinity included, stand in one increasing row. A magnitude is its place
in that row, which is also the word that encodes it. Values are counted in units of `2 ^ -1074`,
the least positive double, so that every finite magnitude is a natural number of units and rounding
a quotient of natural numbers is exact integer arithmetic.
-/

namespace PrefixArith

namespace Magnitude

/-- The place of infinity, the last of the row. -/
def top : Nat := 0x7FF0000000000000

/-- The number of units that make one. -/
def unitsPerOne : Nat := 1 <<< 1074

/-- The number of places that share an exponent, `2 ^ 52`. -/
def placesPerExponent : Nat := 0x10000000000000

/--
The value at a place of the row, in units: a fraction of 52 bits under an exponent, with a leading
bit except at exponent 0. Infinity counts as the value that would come next, `2 ^ 1024`, so that
what rounds to it is what lies at least half way there.
-/
def unitsAt (place : Nat) : Nat :=
  let exponent := place / placesPerExponent
  let fraction := place % placesPerExponent
  if exponent = 0 then fraction else (placesPerExponent + fraction) <<< (exponent - 1)

/-- The last place whose value is at most `count` units: the leading 53 bits of `count`. -/
def placeBelow (count : Nat) : Nat :=
  let shift := count.log2 - 52
  shift * placesPerExponent + count >>> shift

/-- Twice the value half way between a place and the next one. -/
def twiceMiddle (place : Nat) : Nat :=
  unitsAt place + unitsAt (place + 1)

/--
The place taken by what lies between a place and the next one, on that side of the middle. Half way
the even place is taken, which is the one whose fraction ends in a zero bit.
-/
def settle (below : Nat) : Ordering → Nat
  | .lt => below
  | .gt => below + 1
  | .eq => below + below % 2

/-- The place nearest to `numerator / denominator` units. -/
def nearestPlace (numerator denominator : Nat) : Nat :=
  let below := placeBelow (numerator / denominator)
  settle below (compare (2 * numerator) (twiceMiddle below * denominator))

end Magnitude

/-- The absolute value of a double: a place of the row up to that of infinity. -/
structure Magnitude where
  place : Nat
  place_le_top : place ≤ Magnitude.top
  deriving DecidableEq

namespace Magnitude

/-- The magnitude at a place; every place past the last finite one is infinity. -/
def ofPlace (place : Nat) : Magnitude :=
  ⟨min place top, Nat.min_le_right place top⟩

def zero : Magnitude := ofPlace 0

def infinity : Magnitude := ofPlace top

/-- A magnitude is finite exactly below the place of infinity. -/
def isFinite (magnitude : Magnitude) : Bool :=
  magnitude.place < top

/-- The value in units of `2 ^ -1074`. -/
def units (magnitude : Magnitude) : Nat :=
  unitsAt magnitude.place

/-- The magnitude nearest to a quotient of units. -/
def nearest (numerator denominator : Nat) : Magnitude :=
  ofPlace (nearestPlace numerator denominator)

/-- The magnitude nearest to a quotient of natural numbers. -/
def ofRatio (numerator denominator : Nat) : Magnitude :=
  nearest (numerator * unitsPerOne) denominator

/-- The magnitude nearest to a natural number. -/
def ofNat (value : Nat) : Magnitude :=
  ofRatio value 1

/-- The rounded sum; an infinite one if either side is infinite. -/
def add (left right : Magnitude) : Magnitude :=
  nearest (left.units + right.units) 1

/-- The rounded product of magnitudes of which an infinite one meets no zero. -/
def mul (left right : Magnitude) : Magnitude :=
  nearest (left.units * right.units) unitsPerOne

/-- The rounded quotient of finite magnitudes, of which the second is not zero. -/
def div (left right : Magnitude) : Magnitude :=
  nearest (left.units * unitsPerOne) right.units

end Magnitude

end PrefixArith
