import Mathlib.Order.Monotone.Basic
import Mathlib.Tactic.Ring
import PrefixArith.Binary64.Magnitude

/-!
# Rounding to the row of magnitudes

The values at the places of the row grow strictly, and twice the middle between two neighbours is
the sum of their values. A quotient rounds to the place between whose middles it lies, a middle
itself to the even place at its side. Exactly one place is so, the one that rounding computes, and it
depends on nothing but the quotient.
-/

namespace PrefixArith

namespace Magnitude

theorem placesPerExponent_eq : placesPerExponent = 2 ^ 52 := rfl

theorem placesPerExponent_pos : 0 < placesPerExponent := by decide

theorem unitsPerOne_eq : unitsPerOne = 2 ^ 1074 := by
  decide +kernel

theorem unitsPerOne_pos : 0 < unitsPerOne := by
  decide +kernel

/-! ## Values in the row -/

theorem unitsAt_of_lt {fraction : Nat} (small : fraction < placesPerExponent) :
    unitsAt fraction = fraction := by
  rw [unitsAt, Nat.div_eq_of_lt small, Nat.mod_eq_of_lt small, if_pos rfl]

theorem exponent_eq (exponent : Nat) {fraction : Nat} (small : fraction < placesPerExponent) :
    (exponent * placesPerExponent + fraction) / placesPerExponent = exponent := by
  rw [Nat.mul_comm, Nat.mul_add_div placesPerExponent_pos, Nat.div_eq_of_lt small, Nat.add_zero]

theorem unitsAt_normal (exponent : Nat) {fraction : Nat} (small : fraction < placesPerExponent) :
    unitsAt ((exponent + 1) * placesPerExponent + fraction) =
      (placesPerExponent + fraction) * 2 ^ exponent := by
  rw [unitsAt, exponent_eq (exponent + 1) small, Nat.mul_add_mod_of_lt small,
    if_neg (Nat.succ_ne_zero exponent), Nat.shiftLeft_eq, Nat.add_sub_cancel]

/-- From one place to the next the value grows by what the exponent gives to the last bit. -/
theorem unitsAt_succ (place : Nat) :
    unitsAt (place + 1) = unitsAt place + 2 ^ (place / placesPerExponent - 1) := by
  obtain ⟨exponent, fraction, small, rfl⟩ :
      ∃ exponent fraction, fraction < placesPerExponent ∧
        place = exponent * placesPerExponent + fraction :=
    ⟨_, _, Nat.mod_lt place placesPerExponent_pos, (Nat.div_add_mod' place _).symm⟩
  rw [exponent_eq exponent small]
  rcases Nat.lt_or_ge (fraction + 1) placesPerExponent with inside | last
  · cases exponent with
    | zero =>
        rw [Nat.zero_mul, Nat.zero_add, unitsAt_of_lt inside, unitsAt_of_lt small]
        rfl
    | succ exponent =>
        rw [Nat.add_assoc, unitsAt_normal exponent inside, unitsAt_normal exponent small,
          Nat.add_sub_cancel]
        ring
  · -- The next place is the first one of the next exponent.
    have full : fraction + 1 = placesPerExponent := Nat.le_antisymm small last
    have next : exponent * placesPerExponent + fraction + 1 =
        (exponent + 1) * placesPerExponent + 0 := by
      rw [Nat.add_assoc, full]
      ring
    rw [next, unitsAt_normal exponent placesPerExponent_pos]
    cases exponent with
    | zero =>
        rw [Nat.zero_mul, Nat.zero_add, unitsAt_of_lt small, ← full]
        simp
    | succ exponent =>
        rw [unitsAt_normal exponent small, ← full, Nat.add_sub_cancel]
        ring

theorem unitsAt_strictMono : StrictMono unitsAt := by
  apply strictMono_nat_of_lt_succ
  intro place
  rw [unitsAt_succ]
  exact Nat.lt_add_of_pos_right (Nat.two_pow_pos _)

/-- The leading bits of a count are the place whose value is next below it. -/
theorem placeBelow_spec (count : Nat) :
    unitsAt (placeBelow count) ≤ count ∧ count < unitsAt (placeBelow count + 1) := by
  rcases Nat.lt_or_ge count placesPerExponent with small | large
  · have shift : count.log2 - 52 = 0 := by
      rcases Nat.eq_zero_or_pos count with rfl | positive
      · rfl
      · have few := (Nat.log2_lt (Nat.ne_of_gt positive)).mpr (placesPerExponent_eq ▸ small)
        omega
    have here : placeBelow count = count := by
      simp [placeBelow, shift]
    rw [here, unitsAt_succ, unitsAt_of_lt small]
    exact ⟨Nat.le_refl _, Nat.lt_add_of_pos_right (Nat.two_pow_pos _)⟩
  · have nonzero : count ≠ 0 := Nat.ne_of_gt (Nat.lt_of_lt_of_le placesPerExponent_pos large)
    obtain ⟨shift, bits⟩ : ∃ shift, count.log2 = 52 + shift :=
      Nat.exists_eq_add_of_le ((Nat.le_log2 nonzero).mpr (placesPerExponent_eq ▸ large))
    have lower := Nat.log2_self_le nonzero
    have upper := @Nat.lt_log2_self count
    rw [bits] at lower upper
    have positive := Nat.two_pow_pos shift
    have atLeast : placesPerExponent ≤ count / 2 ^ shift := by
      rw [Nat.le_div_iff_mul_le positive, placesPerExponent_eq, ← Nat.pow_add]
      exact lower
    have below : count / 2 ^ shift < 2 * placesPerExponent := by
      rw [Nat.div_lt_iff_lt_mul positive, placesPerExponent_eq]
      calc
        count < 2 ^ (52 + shift + 1) := upper
        _ = 2 * 2 ^ 52 * 2 ^ shift := by ring
    obtain ⟨fraction, leading⟩ := Nat.exists_eq_add_of_le atLeast
    have small : fraction < placesPerExponent := by omega
    have here : placeBelow count = (shift + 1) * placesPerExponent + fraction := by
      simp only [placeBelow, bits, Nat.add_sub_cancel_left, Nat.shiftRight_eq_div_pow]
      rw [leading]
      ring
    rw [here, unitsAt_succ, exponent_eq (shift + 1) small, unitsAt_normal shift small,
      Nat.add_sub_cancel, ← leading]
    exact ⟨Nat.div_mul_le_self count _, Nat.lt_div_mul_add positive⟩

/-! ## The cell of a place -/

theorem twiceMiddle_strictMono : StrictMono twiceMiddle := by
  intro left right before
  exact Nat.add_lt_add (unitsAt_strictMono before) (unitsAt_strictMono (Nat.succ_lt_succ before))

theorem twiceMiddle_lt (place : Nat) : twiceMiddle place < 2 * unitsAt (place + 1) := by
  have grows := unitsAt_strictMono (Nat.lt_succ_self place)
  rw [Nat.succ_eq_add_one] at grows
  rw [twiceMiddle]
  omega

theorem lt_twiceMiddle (place : Nat) : 2 * unitsAt place < twiceMiddle place := by
  have grows := unitsAt_strictMono (Nat.lt_succ_self place)
  rw [Nat.succ_eq_add_one] at grows
  rw [twiceMiddle]
  omega

/--
A quotient rounds to a place: it lies between the middles to both neighbours, themselves included
where the place is even. There is no middle below the first place.
-/
structure RoundsTo (place numerator denominator : Nat) : Prop where
  above : ∀ before, place = before + 1 → twiceMiddle before * denominator < 2 * numerator ∨
    twiceMiddle before * denominator = 2 * numerator ∧ place % 2 = 0
  below : 2 * numerator < twiceMiddle place * denominator ∨
    2 * numerator = twiceMiddle place * denominator ∧ place % 2 = 0

namespace RoundsTo

variable {left right numerator other denominator : Nat}

/-- A greater quotient rounds to no lesser place. -/
theorem mono (positive : 0 < denominator) (toLeft : RoundsTo left numerator denominator)
    (toRight : RoundsTo right other denominator) (ordered : numerator ≤ other) :
    left ≤ right := by
  by_contra crossed
  obtain ⟨between, rfl⟩ : ∃ between, left = between + 1 := ⟨left - 1, by omega⟩
  have lower := toLeft.above between rfl
  have upper := toRight.below
  rcases Nat.lt_or_ge right between with apart | adjacent
  · have scaled := Nat.mul_lt_mul_of_pos_right (twiceMiddle_strictMono apart) positive
    omega
  · -- Neighbours share only the middle between them, and one of the two is odd.
    obtain rfl : right = between := by omega
    omega

/-- A quotient rounds to one place only. -/
theorem unique (positive : 0 < denominator) (toLeft : RoundsTo left numerator denominator)
    (toRight : RoundsTo right numerator denominator) : left = right := by
  apply Nat.le_antisymm
  · exact toLeft.mono positive toRight (Nat.le_refl _)
  · exact toRight.mono positive toLeft (Nat.le_refl _)

end RoundsTo

/-- The place that rounding computes is the one to which the quotient rounds. -/
theorem nearestPlace_roundsTo (numerator : Nat) {denominator : Nat} (positive : 0 < denominator) :
    RoundsTo (nearestPlace numerator denominator) numerator denominator := by
  obtain ⟨atLeast, less⟩ := placeBelow_spec (numerator / denominator)
  rw [nearestPlace]
  generalize placeBelow (numerator / denominator) = place at atLeast less ⊢
  rw [Nat.le_div_iff_mul_le positive] at atLeast
  rw [Nat.div_lt_iff_lt_mul positive] at less
  have clearBelow : ∀ before, place = before + 1 →
      twiceMiddle before * denominator < 2 * numerator := by
    rintro before rfl
    calc
      twiceMiddle before * denominator < 2 * unitsAt (before + 1) * denominator :=
        Nat.mul_lt_mul_of_pos_right (twiceMiddle_lt before) positive
      _ = 2 * (unitsAt (before + 1) * denominator) := Nat.mul_assoc ..
      _ ≤ 2 * numerator := Nat.mul_le_mul_left 2 atLeast
  have clearAbove : 2 * numerator < twiceMiddle (place + 1) * denominator := by
    calc
      2 * numerator < 2 * (unitsAt (place + 1) * denominator) :=
        Nat.mul_lt_mul_of_pos_left less Nat.zero_lt_two
      _ = 2 * unitsAt (place + 1) * denominator := (Nat.mul_assoc ..).symm
      _ ≤ twiceMiddle (place + 1) * denominator :=
        Nat.mul_le_mul_right _ (Nat.le_of_lt (lt_twiceMiddle (place + 1)))
  cases side : compare (2 * numerator) (twiceMiddle place * denominator) with
  | lt =>
      have under := Nat.compare_eq_lt.mp side
      constructor
      · intro before is
        exact .inl (clearBelow before is)
      · exact .inl under
  | gt =>
      have beyond := Nat.compare_eq_gt.mp side
      constructor
      · intro before is
        obtain rfl : place = before := Nat.succ.inj is
        exact .inl beyond
      · exact .inl clearAbove
  | eq =>
      have middle := Nat.compare_eq_eq.mp side
      rcases Nat.mod_two_eq_zero_or_one place with even | odd
      · simp only [settle, even, Nat.add_zero]
        constructor
        · intro before is
          exact .inl (clearBelow before is)
        · exact .inr ⟨middle, even⟩
      · simp only [settle, odd]
        constructor
        · intro before is
          obtain rfl : place = before := Nat.succ.inj is
          exact .inr ⟨middle.symm, by omega⟩
        · exact .inl clearAbove

theorem nearestPlace_eq_iff {place numerator denominator : Nat} (positive : 0 < denominator) :
    nearestPlace numerator denominator = place ↔ RoundsTo place numerator denominator := by
  constructor
  · rintro rfl
    exact nearestPlace_roundsTo numerator positive
  · exact (nearestPlace_roundsTo numerator positive).unique positive

/-! ## Equal quotients -/

theorem mul_lt_iff_of_ratio (middle : Nat) {numerator denominator other otherDenominator : Nat}
    (positive : 0 < denominator) (otherPositive : 0 < otherDenominator)
    (ratio : numerator * otherDenominator = other * denominator) :
    (middle * denominator < 2 * numerator ↔ middle * otherDenominator < 2 * other) ∧
      (2 * numerator < middle * denominator ↔ 2 * other < middle * otherDenominator) := by
  have left : middle * denominator * otherDenominator =
      middle * otherDenominator * denominator := by ring
  have right : 2 * numerator * otherDenominator = 2 * other * denominator := by
    rw [Nat.mul_assoc, ratio, Nat.mul_assoc]
  constructor
  · rw [← Nat.mul_lt_mul_right otherPositive, left, right, Nat.mul_lt_mul_right positive]
  · rw [← Nat.mul_lt_mul_right otherPositive, left, right, Nat.mul_lt_mul_right positive]

/-- Equal quotients round to the same places. -/
theorem RoundsTo.of_ratio {place numerator denominator other otherDenominator : Nat}
    (positive : 0 < denominator) (otherPositive : 0 < otherDenominator)
    (ratio : numerator * otherDenominator = other * denominator)
    (rounds : RoundsTo place numerator denominator) : RoundsTo place other otherDenominator where
  above before is := by
    have sides := mul_lt_iff_of_ratio (twiceMiddle before) positive otherPositive ratio
    have above := rounds.above before is
    omega
  below := by
    have sides := mul_lt_iff_of_ratio (twiceMiddle place) positive otherPositive ratio
    have below := rounds.below
    omega

theorem nearestPlace_eq_of_ratio {numerator denominator other otherDenominator : Nat}
    (positive : 0 < denominator) (otherPositive : 0 < otherDenominator)
    (ratio : numerator * otherDenominator = other * denominator) :
    nearestPlace numerator denominator = nearestPlace other otherDenominator := by
  rw [nearestPlace_eq_iff positive]
  exact (nearestPlace_roundsTo other otherPositive).of_ratio otherPositive positive ratio.symm

/-- A value of the row rounds to its own place. -/
theorem unitsAt_roundsTo (place : Nat) {denominator : Nat} (positive : 0 < denominator) :
    RoundsTo place (unitsAt place * denominator) denominator where
  above before is := by
    subst is
    left
    rw [← Nat.mul_assoc]
    exact Nat.mul_lt_mul_of_pos_right (twiceMiddle_lt before) positive
  below := by
    left
    rw [← Nat.mul_assoc]
    exact Nat.mul_lt_mul_of_pos_right (lt_twiceMiddle place) positive

/-- A quotient rounds to no place before one whose value it reaches. -/
theorem le_nearestPlace {place numerator denominator : Nat} (positive : 0 < denominator)
    (reaches : unitsAt place * denominator ≤ numerator) :
    place ≤ nearestPlace numerator denominator := by
  by_contra before
  have rounds := (nearestPlace_roundsTo numerator positive).below
  have under : twiceMiddle (nearestPlace numerator denominator) < 2 * unitsAt place :=
    Nat.lt_of_lt_of_le (twiceMiddle_lt _) (Nat.mul_le_mul_left 2
      (unitsAt_strictMono.monotone (Nat.lt_of_not_le before)))
  have scaled := Nat.mul_lt_mul_of_pos_right under positive
  rw [Nat.mul_assoc] at scaled
  omega

/-! ## Nearest magnitudes -/

theorem ofPlace_place (magnitude : Magnitude) : ofPlace magnitude.place = magnitude := by
  obtain ⟨place, bounded⟩ := magnitude
  simp only [ofPlace, Nat.min_eq_left bounded]

theorem ofPlace_of_top_le {place : Nat} (past : top ≤ place) : ofPlace place = infinity := by
  simp only [ofPlace, infinity, Nat.min_eq_right past, Nat.min_self]

/-- Equal quotients have the same nearest magnitude. -/
theorem nearest_eq_of_ratio {numerator denominator other otherDenominator : Nat}
    (positive : 0 < denominator) (otherPositive : 0 < otherDenominator)
    (ratio : numerator * otherDenominator = other * denominator) :
    nearest numerator denominator = nearest other otherDenominator :=
  congrArg ofPlace (nearestPlace_eq_of_ratio positive otherPositive ratio)

/-- A magnitude is the nearest one to each quotient that rounds to its place. -/
theorem nearest_eq_of_roundsTo {magnitude : Magnitude} {numerator denominator : Nat}
    (positive : 0 < denominator) (rounds : RoundsTo magnitude.place numerator denominator) :
    nearest numerator denominator = magnitude := by
  rw [nearest, (nearestPlace_eq_iff positive).mpr rounds, ofPlace_place]

/-- A quotient that reaches the value after the last finite one rounds to infinity. -/
theorem nearest_eq_infinity {numerator denominator : Nat} (positive : 0 < denominator)
    (reaches : unitsAt top * denominator ≤ numerator) :
    nearest numerator denominator = infinity :=
  ofPlace_of_top_le (le_nearestPlace positive reaches)

/-- A quotient below half a unit rounds to zero. -/
theorem nearest_eq_zero {numerator denominator : Nat} (positive : 0 < denominator)
    (small : 2 * numerator < denominator) : nearest numerator denominator = zero := by
  refine nearest_eq_of_roundsTo positive ⟨nofun, .inl ?_⟩
  calc
    2 * numerator < denominator := small
    _ = twiceMiddle zero.place * denominator := (Nat.one_mul denominator).symm

end Magnitude

end PrefixArith
