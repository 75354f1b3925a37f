import Mathlib.Algebra.Order.Field.Basic
import PrefixArith.Json.Number
import PrefixArith.Proofs.Binary64.Closeness
import PrefixArith.Proofs.Decimal.Grammar

/-!
# Decimals scaled in doubles

A significand is scaled by a power of ten in doubles, and each step rounds: the significand, the power
and their product or quotient. Where the first two are exact, the result is the double nearest to the
decimal. Otherwise it is two places away from it at most, also where it takes two quotients: between
a significand and its quotient by the largest power of ten, one is rounded by less than it can be.
-/

namespace PrefixArith

namespace Magnitude

/-- What is no more than a number that rounds to a finite magnitude rounds to one. -/
theorem IsNearest.isFinite_of_le {left right : Magnitude} {lower upper : ℚ}
    (toLeft : left.IsNearest lower) (toRight : right.IsNearest upper) (ordered : lower ≤ upper)
    (finite : right.isFinite = true) : left.isFinite = true := by
  have places := value_le_value_iff.mp (toLeft.mono toRight ordered)
  exact decide_eq_true (places.trans_lt (of_decide_eq_true finite))

/-- Nothing but zero is nearest to zero. -/
theorem IsNearest.eq_zero {magnitude : Magnitude} (nearest : magnitude.IsNearest 0) :
    magnitude = .zero := by
  rw [← value_of_units_eq_zero units_zero] at nearest
  exact nearest.unique (isNearest_value _)

/-- What is a few places away from a magnitude that is not among the last ones is finite. -/
theorem isFinite_of_isWithin {magnitude scaled : Magnitude} {count : Nat}
    (within : IsWithin count magnitude scaled) (fits : magnitude.place + count < top) :
    scaled.isFinite = true :=
  decide_eq_true (Nat.lt_of_le_of_lt within.le_right fits)

theorem unitsAt_placesPerExponent : unitsAt placesPerExponent = placesPerExponent := by
  decide

theorem value_leastNormal_le {number : Nat} (positive : 0 < number) :
    leastNormal.value ≤ number := by
  have one : leastNormal.value ≤ 1 := by
    rw [value, place_leastNormal, valueAt, unitsAt_placesPerExponent,
      div_le_one₀ cast_unitsPerOne_pos]
    exact_mod_cast placesPerExponent_le_unitsPerOne
  exact one.trans (by exact_mod_cast positive)

theorem near_ofNat {number : Nat} (positive : 0 < number)
    (finite : (ofNat number).isFinite = true) : Near growth (ofNat number).value number :=
  (ofNat_isNearest number).near finite (value_leastNormal_le positive)

theorem units_pos_of_value_pos {magnitude : Magnitude} (positive : 0 < magnitude.value) :
    0 < magnitude.units := by
  apply Nat.pos_of_ne_zero
  intro zero
  rw [value_of_units_eq_zero zero] at positive
  exact lt_irrefl 0 positive

end Magnitude

namespace Json

namespace Number

open Magnitude

/-! ## Powers of ten -/

theorem isFinite_powerOfTen {exponent : Nat} (inRange : exponent ≤ largestPower) :
    (powerOfTen exponent).isFinite = true := by
  have largest : (powerOfTen largestPower).isFinite = true := by decide +kernel
  refine (ofNat_isNearest _).isFinite_of_le (ofNat_isNearest _) ?_ largest
  exact_mod_cast Decimal.power_le_power inRange

theorem near_powerOfTen {exponent : Nat} (inRange : exponent ≤ largestPower) :
    Near growth (powerOfTen exponent).value (10 ^ exponent) := by
  have near := near_ofNat (Decimal.power_pos exponent) (isFinite_powerOfTen inRange)
  rwa [Decimal.cast_power] at near

theorem value_powerOfTen_pos {exponent : Nat} (inRange : exponent ≤ largestPower) :
    0 < (powerOfTen exponent).value :=
  (near_powerOfTen inRange).pos_left (by positivity)

/-- The powers of ten up to `10 ^ 22` are doubles. -/
theorem value_powerOfTen {exponent : Nat} (small : exponent ≤ 22) :
    (powerOfTen exponent).value = 10 ^ exponent := by
  have counted : ∀ exponent ≤ 22,
      (powerOfTen exponent).units = 10 ^ exponent * unitsPerOne := by decide +kernel
  have units : unitsAt (powerOfTen exponent).place = 10 ^ exponent * unitsPerOne :=
    counted exponent small
  rw [Magnitude.value, valueAt, units, Nat.cast_mul,
    mul_div_cancel_right₀ _ cast_unitsPerOne_pos.ne', Nat.cast_pow, Nat.cast_ofNat]

/-- The largest power of ten is rounded by less than a tenth of what it could be. -/
theorem near_largestPower :
    Near (1 + 99 / (1000 * 2 ^ 53)) (powerOfTen largestPower).value (10 ^ largestPower) := by
  have counted :
      Decimal.power largestPower * unitsPerOne ≤ unitsAt (powerOfTen largestPower).place ∧
      1000 * 2 ^ 53 * unitsAt (powerOfTen largestPower).place ≤
        Decimal.power largestPower * (1000 * 2 ^ 53 + 99) * unitsPerOne := by
    decide +kernel
  have one_le : (1 : ℚ) ≤ 1 + 99 / (1000 * 2 ^ 53) := by norm_num
  have positive := value_powerOfTen_pos (Nat.le_refl largestPower)
  rw [Magnitude.value, valueAt] at positive ⊢
  rw [← Decimal.cast_power]
  generalize unitsAt (powerOfTen largestPower).place = units at counted positive ⊢
  generalize Decimal.power largestPower = power at counted ⊢
  obtain ⟨above, below⟩ : (power * unitsPerOne : ℚ) ≤ units ∧
      (1000 * 2 ^ 53 * units : ℚ) ≤ power * (1000 * 2 ^ 53 + 99) * unitsPerOne := by
    exact_mod_cast counted
  refine ⟨one_le, ?_, ?_⟩
  · rw [div_le_iff₀ cast_unitsPerOne_pos]
    linarith
  · refine le_trans ?_ (le_mul_of_one_le_right positive.le one_le)
    rwa [le_div_iff₀ cast_unitsPerOne_pos]

/-- The largest power of ten lies more than a ninth above a power of two. -/
theorem value_largestPower_bounds :
    89 / 80 * 2 ^ 1023 ≤ (powerOfTen largestPower).value ∧
      (powerOfTen largestPower).value ≤ 9 / 8 * 2 ^ 1023 := by
  have counted :
      89 * 2 ^ 1023 * unitsPerOne ≤ 80 * unitsAt (powerOfTen largestPower).place ∧
      8 * unitsAt (powerOfTen largestPower).place ≤ 9 * 2 ^ 1023 * unitsPerOne := by
    decide +kernel
  obtain ⟨above, below⟩ :
      (89 * 2 ^ 1023 * unitsPerOne : ℚ) ≤ 80 * unitsAt (powerOfTen largestPower).place ∧
      (8 * unitsAt (powerOfTen largestPower).place : ℚ) ≤ 9 * 2 ^ 1023 * unitsPerOne := by
    exact_mod_cast counted
  rw [Magnitude.value, valueAt, le_div_iff₀ cast_unitsPerOne_pos,
    div_le_iff₀ cast_unitsPerOne_pos]
  generalize (2 : ℚ) ^ 1023 = power at above below ⊢
  constructor <;> linarith

/-! ## Steps of scaling -/

theorem scaleDown_once (magnitude : Magnitude) {exponent : Nat} (inRange : exponent ≤ largestPower) :
    scaleDown magnitude exponent = magnitude.div (powerOfTen exponent) := by
  rw [scaleDown]
  exact if_pos inRange

theorem scaleDown_twice {magnitude : Magnitude} (nonzero : magnitude.place ≠ 0) {extra : Nat}
    (some : 0 < extra) (inRange : extra ≤ largestPower) :
    scaleDown magnitude (largestPower + extra) =
      (magnitude.div (powerOfTen largestPower)).div (powerOfTen extra) := by
  have far : ¬ largestPower + extra ≤ largestPower := by
    rw [largestPower]
    omega
  rw [scaleDown, if_neg far, if_neg nonzero, largestPower, Nat.add_sub_cancel_left]
  exact scaleDown_once _ inRange

theorem scale_up (significand : Nat) {exponent : Nat} (inRange : exponent ≤ largestPower) :
    scale significand (.ofNat exponent) =
      if ((Magnitude.ofNat significand).mul (powerOfTen exponent)).isFinite then
        .ok ((Magnitude.ofNat significand).mul (powerOfTen exponent))
      else .error .numberOutOfRange := by
  rw [scale]
  exact if_pos inRange

variable {significand : Nat} {magnitude : Magnitude}

/-! ## Exact steps -/

/-- Zero stays zero whatever it is scaled by. -/
theorem scale_zero (exponent : Int) : scale 0 exponent = .ok .zero := by
  cases exponent with
  | ofNat exponent =>
      have product : Magnitude.mul .zero (powerOfTen exponent) = .zero := by
        rw [Magnitude.mul, units_zero, Nat.zero_mul]
        exact nearest_eq_zero unitsPerOne_pos unitsPerOne_pos
      rw [scale, ofNat_zero, product]
      split <;> rfl
  | negSucc exponent =>
      have quotient : scaleDown .zero (exponent + 1) = .zero := by
        rw [scaleDown]
        split
        case isTrue inRange =>
            have divisor := units_pos_of_value_pos (value_powerOfTen_pos inRange)
            rw [Magnitude.div, units_zero, Nat.zero_mul]
            exact nearest_eq_zero divisor divisor
        case isFalse => exact if_pos rfl
      rw [scale, ofNat_zero, quotient]

/-- Where significand and power are doubles, the scaled decimal is rounded once. -/
theorem scale_exact (finite : magnitude.isFinite = true) (small : significand ≤ 2 ^ 53)
    {exponent : Int} (near : exponent.natAbs ≤ 22)
    (nearest : magnitude.IsNearest (significand * 10 ^ exponent)) :
    scale significand exponent = .ok magnitude := by
  cases exponent with
  | ofNat exponent =>
      have few : exponent ≤ 22 := near
      have rounded := mul_isNearest (.ofNat significand) (powerOfTen exponent)
      rw [value_ofNat small, value_powerOfTen few] at rounded
      rw [Int.ofNat_eq_natCast, zpow_natCast] at nearest
      rw [scale_up significand (Nat.le_trans few (by decide)), rounded.unique nearest,
        if_pos finite]
  | negSucc exponent =>
      have few : exponent + 1 ≤ 22 := near
      have inRange : exponent + 1 ≤ largestPower := Nat.le_trans few (by decide)
      have rounded := div_isNearest (.ofNat significand)
        (units_pos_of_value_pos (value_powerOfTen_pos inRange))
      rw [value_ofNat small, value_powerOfTen few] at rounded
      rw [zpow_negSucc, ← div_eq_mul_inv] at nearest
      rw [scale, scaleDown_once _ inRange, rounded.unique nearest]

/-! ## Rounded steps -/

/-- From 3 on, a quotient by the largest power of ten has a leading bit. -/
theorem le_quotient (more : 3 ≤ significand) :
    leastNormal.value ≤ (Magnitude.ofNat significand).value / (powerOfTen largestPower).value := by
  have largest := @value_powerOfTen_pos largestPower (Nat.le_refl _)
  have three : (3 : ℚ) ≤ (Magnitude.ofNat significand).value := by
    have ordered : ((3 : Nat) : ℚ) ≤ significand := by exact_mod_cast more
    have grows := (ofNat_isNearest 3).mono (ofNat_isNearest significand) ordered
    rwa [value_ofNat (by decide)] at grows
  have counted : placesPerExponent * unitsAt (powerOfTen largestPower).place ≤
      3 * (unitsPerOne * unitsPerOne) := by
    decide +kernel
  have less : leastNormal.value * (powerOfTen largestPower).value ≤ 3 := by
    rw [Magnitude.value, place_leastNormal, valueAt, unitsAt_placesPerExponent, Magnitude.value,
      valueAt, div_mul_div_comm, div_le_iff₀ (mul_pos cast_unitsPerOne_pos cast_unitsPerOne_pos)]
    generalize unitsAt (powerOfTen largestPower).place = units at counted
    exact_mod_cast counted
  rw [le_div_iff₀ largest]
  exact less.trans three

/--
Between a rounded dividend and its rounded quotient by the largest power of ten, one lies a ninth
above the power of two before it: the divisor does, and by more than that.
-/
theorem wide_or_wide {dividend quotient : Magnitude}
    (rounded : quotient.IsNearest (dividend.value / (powerOfTen largestPower).value))
    (finite : quotient.isFinite = true) (dividendNormal : 2 ^ 52 * dividend.step ≤ dividend.value)
    (quotientNormal : 2 ^ 52 * quotient.step ≤ quotient.value) :
    10 / 9 * 2 ^ 52 * dividend.step ≤ dividend.value ∨
      10 / 9 * 2 ^ 52 * quotient.step ≤ quotient.value := by
  obtain ⟨atLeast, atMost⟩ := value_largestPower_bounds
  have divisor := value_powerOfTen_pos (Nat.le_refl largestPower)
  generalize (powerOfTen largestPower).value = power at rounded atLeast atMost divisor
  have dividendStep := dividend.step_pos
  have quotientStep := quotient.step_pos
  have nonnegative : 0 ≤ dividend.value / power := div_nonneg (valueAt_nonneg _) divisor.le
  obtain ⟨below, above⟩ := abs_le.mp
    ((le_div_iff₀' two_pos).mpr (rounded.two_mul_abs_sub_le finite nonnegative))
  have lower : (quotient.value - quotient.step / 2) * power ≤ dividend.value :=
    (le_div_iff₀ divisor).mp (by linarith)
  have upper : dividend.value ≤ (quotient.value + quotient.step / 2) * power :=
    (div_le_iff₀ divisor).mp (by linarith)
  by_contra narrow
  obtain ⟨dividendNarrow, quotientNarrow⟩ := not_or.mp narrow
  rw [not_le] at dividendNarrow quotientNarrow
  rcases step_le_or_le dividend quotient 1023 with close | far
  -- A quotient just above a power of two takes a dividend well above the next one below it.
  · have scaled : (2 ^ 52 - 1 / 2) * quotient.step * (89 / 80 * 2 ^ 1023) ≤
        (quotient.value - quotient.step / 2) * power :=
      mul_le_mul (by linarith) atLeast (by positivity) (by nlinarith)
    generalize (2 : ℚ) ^ 1023 = bits at close scaled
    linarith
  -- And it takes one well below the power of two that follows.
  · have scaled : (quotient.value + quotient.step / 2) * power ≤
        ((10 / 9 * 2 ^ 52 + 1 / 2) * quotient.step) * (9 / 8 * 2 ^ 1023) :=
      mul_le_mul (by linarith) atMost divisor.le (by positivity)
    rw [pow_succ] at far
    generalize (2 : ℚ) ^ 1023 = bits at far scaled
    linarith

variable (positive : 0 < significand) (narrow : (Magnitude.ofNat significand).isFinite = true)

include positive narrow

theorem value_ofNat_pos : 0 < (Magnitude.ofNat significand).value :=
  (near_ofNat positive narrow).pos_left (Nat.cast_pos.mpr positive)

/-- A product of a rounded significand and a rounded power is two factors away from the exact one. -/
theorem isWithin_scaleUp {exponent : Nat} (inRange : exponent ≤ largestPower)
    (nearest : magnitude.IsNearest (significand * 10 ^ exponent)) :
    IsWithin 2 magnitude ((Magnitude.ofNat significand).mul (powerOfTen exponent)) := by
  have rounded := mul_isNearest (.ofNat significand) (powerOfTen exponent)
  have near := (near_ofNat positive narrow).mul (near_powerOfTen inRange)
    (value_ofNat_pos positive narrow).le (Nat.cast_nonneg _) (value_powerOfTen_pos inRange).le
    (by positivity)
  rw [← pow_two] at near
  exact isWithin_of_near nearest rounded Nat.two_pos near.symm

/-- A quotient of a rounded significand by a rounded power is two factors away from the exact one. -/
theorem isWithin_scaleDown {exponent : Nat} (inRange : exponent ≤ largestPower)
    (nearest : magnitude.IsNearest (significand / 10 ^ exponent)) :
    IsWithin 2 magnitude (scaleDown (.ofNat significand) exponent) := by
  have divisor := value_powerOfTen_pos inRange
  have rounded := div_isNearest (.ofNat significand) (units_pos_of_value_pos divisor)
  have near := (near_ofNat positive narrow).div (near_powerOfTen inRange)
    (value_ofNat_pos positive narrow).le (Nat.cast_nonneg _) divisor (by positivity)
  rw [← pow_two] at near
  rw [scaleDown_once _ inRange]
  exact isWithin_of_near nearest rounded Nat.two_pos near.symm

theorem place_ofNat_ne_zero : (Magnitude.ofNat significand).place ≠ 0 := by
  intro zero
  have none : (Magnitude.ofNat significand).units = 0 := by
    rw [units, zero, unitsAt_zero]
  exact (value_ofNat_pos positive narrow).ne' (value_of_units_eq_zero none)

/-- A rounded significand that is divided by the largest power of ten is no more than it was. -/
theorem isFinite_quotient {quotient : Magnitude}
    (rounded : quotient.IsNearest
      ((Magnitude.ofNat significand).value / (powerOfTen largestPower).value)) :
    quotient.isFinite = true := by
  have ordered : ((1 : Nat) : ℚ) ≤ (Decimal.power largestPower : Nat) := by
    exact_mod_cast Decimal.power_pos largestPower
  have large := (ofNat_isNearest 1).mono (ofNat_isNearest (Decimal.power largestPower)) ordered
  rw [value_ofNat (by decide), Nat.cast_one] at large
  refine rounded.isFinite_of_le (isNearest_value _) ?_ narrow
  exact div_le_self (value_ofNat_pos positive narrow).le large

/-- The first quotient of two is two factors away from the exact one, from 3 on. -/
theorem near_quotient (more : 3 ≤ significand) {quotient : Magnitude}
    (rounded : quotient.IsNearest
      ((Magnitude.ofNat significand).value / (powerOfTen largestPower).value)) :
    Near (growth ^ 2) quotient.value (significand / 10 ^ largestPower) := by
  have whole : (0 : ℚ) < significand := Nat.cast_pos.mpr positive
  have power : (0 : ℚ) < 10 ^ largestPower := pow_pos (by norm_num) _
  have dividend := value_ofNat_pos positive narrow
  have divisor := value_powerOfTen_pos (Nat.le_refl largestPower)
  have finite := isFinite_quotient positive narrow rounded
  have plain := near_ofNat positive narrow
  have plainQuotient := rounded.near finite (le_quotient more)
  have wide : (1 : ℚ) ≤ 10 / 9 * 2 ^ 52 := by norm_num
  -- The error of the wider one of the two, and of the divisor, leaves room for that of the other.
  have room : growth * ((1 + 1 / (2 * (10 / 9 * 2 ^ 52) - 1)) * (1 + 99 / (1000 * 2 ^ 53))) ≤
      growth ^ 2 := by
    norm_num [growth]
  have positiveQuotient := plainQuotient.pos_left (div_pos dividend divisor)
  have normal := (ofNat_isNearest significand).mul_step_le (value_leastNormal_le positive)
  have normalQuotient := rounded.mul_step_le (le_quotient more)
  rcases wide_or_wide rounded finite normal normalQuotient with reached | reached
  · have close := (ofNat_isNearest significand).near_of_step narrow whole.le wide reached
    have near := plainQuotient.trans
      (close.div near_largestPower dividend.le whole.le divisor power)
    exact near.mono positiveQuotient.le (by positivity) room
  · have close := rounded.near_of_step finite (div_pos dividend divisor).le wide reached
    have near := close.trans (plain.div near_largestPower dividend.le whole.le divisor power)
    exact near.mono positiveQuotient.le (by positivity) (by rwa [mul_left_comm] at room)

/-- Scaling down in two steps is two factors away from the exact quotient, from 3 on. -/
theorem isWithin_scaleDown_twice (more : 3 ≤ significand) {extra : Nat} (some : 0 < extra)
    (few : extra ≤ 22)
    (nearest : magnitude.IsNearest (significand / 10 ^ (largestPower + extra))) :
    IsWithin 2 magnitude (scaleDown (.ofNat significand) (largestPower + extra)) := by
  have inRange : extra ≤ largestPower := Nat.le_trans few (by decide)
  have first := div_isNearest (.ofNat significand)
    (units_pos_of_value_pos (value_powerOfTen_pos (Nat.le_refl largestPower)))
  rw [scaleDown_twice (place_ofNat_ne_zero positive narrow) some inRange]
  generalize (Magnitude.ofNat significand).div (powerOfTen largestPower) = quotient at first
  have near := near_quotient positive narrow more first
  have power : (0 : ℚ) < 10 ^ largestPower := pow_pos (by norm_num) _
  rw [pow_add, ← div_div] at nearest
  generalize (10 : ℚ) ^ largestPower = largest at near nearest power
  have quotientPositive := near.pos_left (by positivity)
  have second := div_isNearest quotient (units_pos_of_value_pos (value_powerOfTen_pos inRange))
  rw [value_powerOfTen few] at second
  have scaled := near.div (.refl (10 ^ extra)) quotientPositive.le (by positivity) (by positivity)
    (by positivity)
  rw [mul_one] at scaled
  exact isWithin_of_near nearest second (by decide) scaled.symm

/-- The quotients that have no leading bit after the first step are exact all the same. -/
theorem scaleDown_twice_small (less : significand < 3) {extra : Nat} (some : 0 < extra)
    (few : extra ≤ 16) (nearest : magnitude.IsNearest (significand / 10 ^ (largestPower + extra))) :
    scaleDown (.ofNat significand) (largestPower + extra) = magnitude := by
  have computed : ∀ significand < 3, ∀ extra ≤ 16,
      ((Magnitude.ofNat significand).div (powerOfTen largestPower)).div (powerOfTen extra) =
        .nearest (significand * unitsPerOne) (Decimal.power (largestPower + extra)) := by
    decide +kernel
  have inRange : extra ≤ largestPower := Nat.le_trans few (by decide)
  have rounded := nearest_isNearest (significand * unitsPerOne)
    (Decimal.power_pos (largestPower + extra))
  rw [scaleDown_twice (place_ofNat_ne_zero positive narrow) some inRange, computed _ less _ few]
  rw [Nat.cast_mul, mul_div_mul_right _ _ cast_unitsPerOne_pos.ne', Decimal.cast_power] at rounded
  exact rounded.unique nearest

/-- Scaling down in two steps never leads farther than two places away. -/
theorem isWithin_scaleDown_far {extra : Nat} (some : 0 < extra) (few : extra ≤ 16)
    (nearest : magnitude.IsNearest (significand / 10 ^ (largestPower + extra))) :
    IsWithin 2 magnitude (scaleDown (.ofNat significand) (largestPower + extra)) := by
  rcases Nat.lt_or_ge significand 3 with less | more
  -- The first quotient has no leading bit, so no bound on its error holds.
  · rw [scaleDown_twice_small positive narrow less some few nearest]
    exact .refl 2 magnitude
  · exact isWithin_scaleDown_twice positive narrow more some (Nat.le_trans few (by decide)) nearest

/--
A decimal in the range of doubles is scaled to a finite double two places away from the nearest one
at most, unless that is among the last doubles; those have to be looked at one by one.
-/
theorem exists_scale_eq {exponent : Int} (low : -324 ≤ exponent) (high : exponent ≤ 308)
    (nearest : magnitude.IsNearest (significand * 10 ^ exponent))
    (fits : magnitude.place + 2 < top ∨
      (scale significand exponent).toOption.any Magnitude.isFinite = true) :
    ∃ scaled, scale significand exponent = .ok scaled ∧ scaled.isFinite = true ∧
      IsWithin 2 magnitude scaled := by
  cases exponent with
  | ofNat exponent =>
      have inRange : exponent ≤ largestPower := Int.ofNat_le.mp high
      rw [Int.ofNat_eq_natCast, zpow_natCast] at nearest
      have within := isWithin_scaleUp positive narrow inRange nearest
      have finite : ((Magnitude.ofNat significand).mul (powerOfTen exponent)).isFinite = true := by
        rcases fits with early | computed
        · exact isFinite_of_isWithin within early
        · rw [scale_up significand inRange] at computed
          by_contra infinite
          rw [if_neg infinite] at computed
          exact Bool.false_ne_true computed
      rw [scale_up significand inRange, if_pos finite]
      exact ⟨_, rfl, finite, within⟩
  | negSucc exponent =>
      rw [zpow_negSucc, ← div_eq_mul_inv] at nearest
      have within : IsWithin 2 magnitude (scaleDown (.ofNat significand) (exponent + 1)) := by
        rcases Nat.lt_or_ge exponent largestPower with inRange | far
        · exact isWithin_scaleDown positive narrow inRange nearest
        · obtain ⟨extra, is⟩ := Nat.exists_eq_add_of_le far
          have sum : exponent + 1 = largestPower + (extra + 1) := by omega
          rw [sum] at nearest ⊢
          refine isWithin_scaleDown_far positive narrow (Nat.succ_pos extra) ?_ nearest
          rw [largestPower] at is
          omega
      refine ⟨_, rfl, ?_, within⟩
      rcases fits with early | computed
      · exact isFinite_of_isWithin within early
      · exact computed

end Number

end Json

end PrefixArith
