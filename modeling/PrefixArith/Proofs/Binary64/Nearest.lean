import Mathlib.Algebra.Order.Field.Rat
import Mathlib.Data.Rat.Cast.Order
import Mathlib.Algebra.Order.Ring.Abs
import Mathlib.Tactic.FieldSimp
import Mathlib.Tactic.Linarith
import PrefixArith.Proofs.Binary64.Rounding

/-!
# Nearest doubles

A double is nearest to a rational number if none is closer, and of two equally close ones the even
one is taken. Infinity takes part with the value `2 ^ 1024`, which would come after the last finite
one. Each rational number has exactly one nearest magnitude, which grows with the number, and the
operations on magnitudes give the one that is nearest to the exact result.
-/

namespace PrefixArith

namespace Magnitude

/-- The value at a place of the row. -/
def valueAt (place : Nat) : ℚ :=
  unitsAt place / unitsPerOne

/-- The value of a magnitude; that of infinity is the value after the last finite one. -/
def value (magnitude : Magnitude) : ℚ :=
  valueAt magnitude.place

/--
A magnitude is nearest to a number: no other is closer to it, and where another is as close the
fraction of the magnitude ends in a zero bit.
-/
structure IsNearest (magnitude : Magnitude) (target : ℚ) : Prop where
  closest : ∀ other : Magnitude, |magnitude.value - target| ≤ |other.value - target|
  even : ∀ other : Magnitude, |other.value - target| = |magnitude.value - target| →
    other = magnitude ∨ magnitude.place % 2 = 0

/-! ## Values in the row -/

theorem cast_unitsPerOne_pos : (0 : ℚ) < unitsPerOne :=
  Nat.cast_pos.mpr unitsPerOne_pos

theorem valueAt_strictMono : StrictMono valueAt := by
  intro left right before
  exact div_lt_div_of_pos_right (Nat.cast_lt.mpr (unitsAt_strictMono before)) cast_unitsPerOne_pos

theorem value_le_value_iff {left right : Magnitude} :
    left.value ≤ right.value ↔ left.place ≤ right.place :=
  valueAt_strictMono.le_iff_le

theorem value_of_units_eq_zero {magnitude : Magnitude} (none : magnitude.units = 0) :
    magnitude.value = 0 := by
  have atPlace : unitsAt magnitude.place = 0 := none
  rw [value, valueAt, atPlace, Nat.cast_zero, zero_div]

theorem eq_of_place_eq {left right : Magnitude} (same : left.place = right.place) :
    left = right := by
  obtain ⟨place, bounded⟩ := left
  obtain rfl : place = right.place := same
  rfl

theorem place_ofPlace {place : Nat} (bounded : place ≤ top) : (ofPlace place).place = place :=
  Nat.min_eq_left bounded

/-- Sums of quotients by one unit are compared with a quotient as natural numbers. -/
theorem div_add_div_lt_iff (left right numerator : Nat) {denominator unit : Nat}
    (positive : 0 < denominator) (unitPositive : 0 < unit) :
    ((left / unit + right / unit : ℚ) < 2 * (numerator / (denominator * unit)) ↔
      (left + right) * denominator < 2 * numerator) ∧
    (2 * (numerator / (denominator * unit) : ℚ) < left / unit + right / unit ↔
      2 * numerator < (left + right) * denominator) := by
  have some : (0 : ℚ) < denominator := Nat.cast_pos.mpr positive
  have one : (0 : ℚ) < unit := Nat.cast_pos.mpr unitPositive
  have sum : (left / unit + right / unit : ℚ) =
      ((left + right) * denominator : Nat) / (denominator * unit : ℚ) := by
    push_cast
    field_simp
  have twice : (2 : ℚ) * (numerator / (denominator * unit)) =
      (2 * numerator : Nat) / (denominator * unit : ℚ) := by
    push_cast
    ring
  rw [sum, twice, div_lt_div_iff_of_pos_right (by positivity),
    div_lt_div_iff_of_pos_right (by positivity), Nat.cast_lt, Nat.cast_lt]
  exact ⟨Iff.rfl, Iff.rfl⟩

/-! ## Sides of a nearest magnitude -/

theorem abs_sub_lt_abs_sub_iff {low high target : ℚ} (before : low < high) :
    (|high - target| < |low - target| ↔ low + high < 2 * target) ∧
      (|low - target| < |high - target| ↔ 2 * target < low + high) := by
  rw [← sq_lt_sq, ← sq_lt_sq]
  constructor
  · constructor
    · intro closer
      nlinarith
    · intro beyond
      nlinarith
  · constructor
    · intro closer
      nlinarith
    · intro under
      nlinarith

/--
A magnitude is nearest to a number that lies between its middles with all smaller and all larger
ones, the middles themselves included where it is even.
-/
theorem isNearest_iff {magnitude : Magnitude} {target : ℚ} :
    magnitude.IsNearest target ↔
      (∀ other : Magnitude, other.place < magnitude.place →
        ¬ 2 * target < other.value + magnitude.value ∧
          (magnitude.place % 2 = 0 ∨ other.value + magnitude.value < 2 * target)) ∧
      ∀ other : Magnitude, magnitude.place < other.place →
        ¬ magnitude.value + other.value < 2 * target ∧
          (magnitude.place % 2 = 0 ∨ 2 * target < magnitude.value + other.value) := by
  constructor
  · intro nearest
    constructor
    · intro other before
      have sides := @abs_sub_lt_abs_sub_iff _ _ target (valueAt_strictMono before)
      have closest := nearest.closest other
      refine ⟨fun under => ?_, ?_⟩
      · exact absurd (sides.2.mpr under) (not_lt.mpr closest)
      · rcases lt_or_eq_of_le closest with closer | tie
        · exact .inr (sides.1.mp closer)
        · rcases nearest.even other tie.symm with rfl | even
          · exact absurd before (lt_irrefl _)
          · exact .inl even
    · intro other after
      have sides := @abs_sub_lt_abs_sub_iff _ _ target (valueAt_strictMono after)
      have closest := nearest.closest other
      refine ⟨fun beyond => ?_, ?_⟩
      · exact absurd (sides.1.mpr beyond) (not_lt.mpr closest)
      · rcases lt_or_eq_of_le closest with closer | tie
        · exact .inr (sides.2.mp closer)
        · rcases nearest.even other tie.symm with rfl | even
          · exact absurd after (lt_irrefl _)
          · exact .inl even
  · rintro ⟨smaller, larger⟩
    constructor
    · intro other
      rcases lt_trichotomy other.place magnitude.place with before | same | after
      · have sides := @abs_sub_lt_abs_sub_iff _ _ target (valueAt_strictMono before)
        exact not_lt.mp fun closer => (smaller other before).1 (sides.2.mp closer)
      · rw [eq_of_place_eq same]
      · have sides := @abs_sub_lt_abs_sub_iff _ _ target (valueAt_strictMono after)
        exact not_lt.mp fun closer => (larger other after).1 (sides.1.mp closer)
    · intro other tie
      rcases lt_trichotomy other.place magnitude.place with before | same | after
      · have sides := @abs_sub_lt_abs_sub_iff _ _ target (valueAt_strictMono before)
        rcases (smaller other before).2 with even | beyond
        · exact .inr even
        · exact absurd tie (ne_of_gt (sides.1.mpr beyond))
      · exact .inl (eq_of_place_eq same)
      · have sides := @abs_sub_lt_abs_sub_iff _ _ target (valueAt_strictMono after)
        rcases (larger other after).2 with even | under
        · exact .inr even
        · exact absurd tie (ne_of_gt (sides.2.mpr under))

/-! ## The one nearest magnitude -/

/-- Where a quotient rounds to a place, its side of the middles with all smaller places is known. -/
theorem RoundsTo.of_lt {place other numerator denominator : Nat}
    (rounds : RoundsTo place numerator denominator) (before : other < place) :
    ¬ 2 * numerator < (unitsAt other + unitsAt place) * denominator ∧
      (place % 2 = 0 ∨ (unitsAt other + unitsAt place) * denominator < 2 * numerator) := by
  obtain ⟨last, rfl⟩ : ∃ last, place = last + 1 := ⟨place - 1, by omega⟩
  have above := rounds.above last rfl
  have middle : (unitsAt other + unitsAt (last + 1)) * denominator ≤
      twiceMiddle last * denominator := by
    apply Nat.mul_le_mul_right
    exact Nat.add_le_add_right (unitsAt_strictMono.monotone (Nat.le_of_lt_succ before)) _
  omega

/-- Where a quotient rounds to a place, its side of the middles with all larger places is known. -/
theorem RoundsTo.of_gt {place other numerator denominator : Nat}
    (rounds : RoundsTo place numerator denominator) (after : place < other) :
    ¬ (unitsAt place + unitsAt other) * denominator < 2 * numerator ∧
      (place % 2 = 0 ∨ 2 * numerator < (unitsAt place + unitsAt other) * denominator) := by
  have below := rounds.below
  have middle : twiceMiddle place * denominator ≤
      (unitsAt place + unitsAt other) * denominator := by
    apply Nat.mul_le_mul_right
    exact Nat.add_le_add_left (unitsAt_strictMono.monotone after) _
  omega

/-- The magnitude that a quotient is rounded to is nearest to it. -/
theorem nearest_isNearest (numerator : Nat) {denominator : Nat} (positive : 0 < denominator) :
    (nearest numerator denominator).IsNearest (numerator / (denominator * unitsPerOne)) := by
  have rounds := nearestPlace_roundsTo numerator positive
  rw [nearest]
  generalize nearestPlace numerator denominator = place at rounds ⊢
  have compared (left right : Nat) :=
    div_add_div_lt_iff (unitsAt left) (unitsAt right) numerator positive unitsPerOne_pos
  rw [isNearest_iff]
  rcases le_or_gt place top with bounded | past
  · simp only [value, valueAt, place_ofPlace bounded, compared]
    constructor
    · intro other before
      exact rounds.of_lt before
    · intro other after
      exact rounds.of_gt after
  · -- What lies past the row is nearest to its last place, from which every other is apart.
    have last : (ofPlace place).place = top := Nat.min_eq_right (Nat.le_of_lt past)
    simp only [value, valueAt, last, compared]
    constructor
    · intro other before
      have reached := (rounds.of_lt past).1
      have lower : (unitsAt other.place + unitsAt top) * denominator <
          (unitsAt top + unitsAt place) * denominator := by
        apply Nat.mul_lt_mul_of_pos_right _ positive
        exact Nat.add_lt_add (unitsAt_strictMono before) (unitsAt_strictMono past)
      omega
    · intro other after
      exact absurd other.place_le_top (Nat.not_le.mpr after)

/-- The nearest magnitude grows with the number. -/
theorem IsNearest.mono {left right : Magnitude} {lower upper : ℚ} (toLeft : left.IsNearest lower)
    (toRight : right.IsNearest upper) (ordered : lower ≤ upper) : left.value ≤ right.value := by
  rw [value_le_value_iff]
  by_contra crossed
  have before : right.place < left.place := Nat.lt_of_not_le crossed
  have leftSide := (isNearest_iff.mp toLeft).1 right before
  have rightSide := (isNearest_iff.mp toRight).2 left before
  have atLeast := not_lt.mp leftSide.1
  have atMost := not_lt.mp rightSide.1
  have leftEven : left.place % 2 = 0 := leftSide.2.resolve_right (by linarith)
  have rightEven : right.place % 2 = 0 := rightSide.2.resolve_right (by linarith)
  -- Between two even places lies an odd one, which is closer.
  have between : right.place + 1 < left.place := by omega
  have odd : (ofPlace (right.place + 1)).place = right.place + 1 :=
    place_ofPlace (Nat.le_of_lt (Nat.lt_of_lt_of_le between left.place_le_top))
  have closer := ((isNearest_iff.mp toLeft).1 (ofPlace (right.place + 1)) (by rwa [odd])).1
  have grows : right.value < (ofPlace (right.place + 1)).value := by
    rw [value, value, odd]
    exact valueAt_strictMono (Nat.lt_succ_self _)
  exact closer (by linarith)

/-- A number has one nearest magnitude only. -/
theorem IsNearest.unique {left right : Magnitude} {target : ℚ} (toLeft : left.IsNearest target)
    (toRight : right.IsNearest target) : left = right := by
  apply eq_of_place_eq
  apply Nat.le_antisymm
  · exact value_le_value_iff.mp (toLeft.mono toRight le_rfl)
  · exact value_le_value_iff.mp (toRight.mono toLeft le_rfl)

/-! ## Rounded operations -/

theorem ofNat_isNearest (number : Nat) : (ofNat number).IsNearest number := by
  have rounded := nearest_isNearest (number * unitsPerOne) Nat.one_pos
  have exact : ((number * unitsPerOne : Nat) / ((1 : Nat) * unitsPerOne) : ℚ) = number := by
    rw [Nat.cast_mul, Nat.cast_one, one_mul, mul_div_cancel_right₀ _ cast_unitsPerOne_pos.ne']
  rwa [exact] at rounded

theorem add_isNearest (left right : Magnitude) :
    (left.add right).IsNearest (left.value + right.value) := by
  have rounded := nearest_isNearest (left.units + right.units) Nat.one_pos
  have exact : ((left.units + right.units : Nat) / ((1 : Nat) * unitsPerOne) : ℚ) =
      left.value + right.value := by
    rw [Nat.cast_add, Nat.cast_one, one_mul, add_div]
    rfl
  rwa [exact] at rounded

theorem mul_isNearest (left right : Magnitude) :
    (left.mul right).IsNearest (left.value * right.value) := by
  have rounded := nearest_isNearest (left.units * right.units) unitsPerOne_pos
  have exact : ((left.units * right.units : Nat) / (unitsPerOne * unitsPerOne : ℚ) : ℚ) =
      left.value * right.value := by
    rw [Nat.cast_mul, ← div_mul_div_comm]
    rfl
  rwa [exact] at rounded

end Magnitude

end PrefixArith
