import PrefixArith.Decimal.Numeral

/-!
# Shortest decimals

The shortest decimal of a magnitude is the one with the fewest digits among those that round to it,
and the nearest to it among those. All values are whole numbers of `10 ^ -1075` here: a half unit of
the doubles is `5 ^ 1075` of them, and the grid of the multiples of a power of ten is the multiples
of a natural number.
-/

namespace PrefixArith

namespace Decimal

/-- Which of two equally near decimals is taken. -/
inductive Tie where
  | up
  | even
  deriving DecidableEq

/-- A decimal `significand * 10 ^ exponent`. -/
structure Scientific where
  significand : Nat
  exponent : Int
  deriving DecidableEq

namespace Shortest

/-- The number of decimal places in which every half unit of the doubles is a whole number. -/
def places : Nat := 1075

/-- Half a unit of the doubles, counted in `10 ^ -1075`. -/
def halfUnit : Nat := Nat.pow 5 places

/-- The value of a magnitude. -/
def value (magnitude : Magnitude) : Nat :=
  2 * magnitude.units * halfUnit

/-- The value half way between two neighbouring places of the row of magnitudes. -/
def middle (place : Nat) : Nat :=
  (Magnitude.unitsAt place + Magnitude.unitsAt (place + 1)) * halfUnit

/--
Whether a value rounds to a magnitude other than zero: it lies between the middles to both
neighbours, themselves included when the magnitude is even.
-/
def roundsTo (magnitude : Magnitude) (candidate : Nat) : Bool :=
  let low := middle (magnitude.place - 1)
  let high := middle magnitude.place
  if magnitude.place % 2 = 0 then low ≤ candidate && candidate ≤ high
  else low < candidate && candidate < high

/-- Of the multiples of `step` on both sides of `exact`, the multiplier of the nearer. -/
def nearer (tie : Tie) (step exact : Nat) : Nat :=
  let below := exact / step
  match compare (2 * (exact % step)) step with
  | .lt => below
  | .gt => below + 1
  | .eq =>
      match tie with
      | .up => below + 1
      | .even => below + below % 2

/--
The multiplier of a multiple of `step` that rounds to the magnitude: of its two neighbours on that
grid the one that does, or the nearer when both do.
-/
def onGrid? (tie : Tie) (magnitude : Magnitude) (step : Nat) : Option Nat :=
  let exact := value magnitude
  let below := exact / step
  match roundsTo magnitude (below * step), roundsTo magnitude ((below + 1) * step) with
  | true, true => some (nearer tie step exact)
  | true, false => some below
  | false, true => some (below + 1)
  | false, false => none

/-- The first decimal found on the grids of `10 ^ (grid - 1075)` and finer powers of ten. -/
def search (tie : Tie) (magnitude : Magnitude) : Nat → Scientific
  | 0 => ⟨value magnitude, -places⟩
  | grid + 1 =>
      match onGrid? tie magnitude (power (grid + 1)) with
      | some significand => ⟨significand, (grid + 1 : Int) - places⟩
      | none => search tie magnitude grid

/-- A grid so coarse that its first positive member exceeds `bound`: `2 ^ 93` is below `10 ^ 28`. -/
def coarseGrid (bound : Nat) : Nat :=
  28 * (bound.log2 + 1) / 93 + 1

end Shortest

/-- The shortest decimal that rounds to a finite magnitude; zero has one digit. -/
def shortest (tie : Tie) (magnitude : Magnitude) : Scientific :=
  if magnitude.place = 0 then ⟨0, 0⟩
  else Shortest.search tie magnitude (Shortest.coarseGrid (Shortest.value magnitude))

end Decimal

end PrefixArith
