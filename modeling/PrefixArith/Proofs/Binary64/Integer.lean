import PrefixArith.Proofs.Binary64.Addition

/-!
# Integers as doubles

Every integer of at most `2 ^ 53` in size is a double. Between such doubles sums, differences and
comparisons are those of the integers, as long as the results stay in this range: rounding changes
nothing, and a zero that comes out has no sign.
-/

namespace PrefixArith

namespace Magnitude

/--
The value at a place with an exponent is at least `2 ^ 52` times the distance to the next one.
-/
theorem placesPerExponent_mul_spacing_le {place : Nat} (normal : placesPerExponent ≤ place) :
    placesPerExponent * spacing place ≤ unitsAt place := by
  obtain ⟨exponent, fraction, small, rfl⟩ := exists_normal normal
  rw [spacing_normal exponent small, unitsAt_normal exponent small]
  exact Nat.mul_le_mul_right _ (Nat.le_add_right _ _)

/-- A whole number up to `2 ^ 53` misses no place: the places around it would be closer than two. -/
theorem unitsAt_nearestPlace {number : Nat} (small : number ≤ 2 ^ 53) :
    unitsAt (nearestPlace (number * unitsPerOne) 1) = number * unitsPerOne := by
  cases adjoins_nearestPlace (number * unitsPerOne) with
  | exact here => exact here
  | @beside lower above below near =>
      have wide : 2 * unitsPerOne ≤ spacing lower :=
        Nat.le_of_dvd (Nat.two_pow_pos _) (two_mul_unitsPerOne_dvd_spacing above below)
      have reached := placesPerExponent_mul_spacing_le (normal_of_wide wide)
      have far : number * unitsPerOne ≤ unitsAt lower := by
        calc
          number * unitsPerOne ≤ 2 ^ 53 * unitsPerOne := Nat.mul_le_mul_right _ small
          _ = placesPerExponent * (2 * unitsPerOne) := by rw [placesPerExponent_eq]; ring
          _ ≤ placesPerExponent * spacing lower := Nat.mul_le_mul_left _ wide
          _ ≤ unitsAt lower := reached
      omega

theorem place_ofNat {number : Nat} (small : number ≤ 2 ^ 53) :
    nearestPlace (number * unitsPerOne) 1 < top := by
  apply unitsAt_strictMono.lt_iff_lt.mp
  rw [unitsAt_nearestPlace small]
  calc
    number * unitsPerOne ≤ 2 ^ 53 * unitsPerOne := Nat.mul_le_mul_right _ small
    _ < unitsAt top := by decide +kernel

/-- A whole number up to `2 ^ 53` is a magnitude, exactly. -/
theorem units_ofNat {number : Nat} (small : number ≤ 2 ^ 53) :
    (ofNat number).units = number * unitsPerOne := by
  have here : (ofNat number).place = nearestPlace (number * unitsPerOne) 1 :=
    place_ofPlace (place_ofNat small).le
  rw [units, here, unitsAt_nearestPlace small]

theorem isFinite_ofNat {number : Nat} (small : number ≤ 2 ^ 53) :
    (ofNat number).isFinite = true := by
  have here : (ofNat number).place = nearestPlace (number * unitsPerOne) 1 :=
    place_ofPlace (place_ofNat small).le
  rw [isFinite, here]
  exact decide_eq_true (place_ofNat small)

theorem value_ofNat {number : Nat} (small : number ≤ 2 ^ 53) : (ofNat number).value = number := by
  have exact : unitsAt (ofNat number).place = number * unitsPerOne := units_ofNat small
  rw [value, valueAt, exact, Nat.cast_mul, mul_div_cancel_right₀ _ cast_unitsPerOne_pos.ne']

theorem ofNat_zero : ofNat 0 = zero := by
  apply eq_zero_of_units_eq_zero
  rw [units_ofNat (Nat.zero_le _), Nat.zero_mul]

/-- Past `2 ^ 53` the even numbers are in the row, the first of them as twice a number before it. -/
theorem exists_unitsAt_past : ∃ place, unitsAt place = (2 ^ 53 + 2) * unitsPerOne := by
  obtain ⟨place, here⟩ : ∃ place, unitsAt place = (2 ^ 52 + 1) * unitsPerOne :=
    ⟨_, unitsAt_nearestPlace (by decide)⟩
  obtain ⟨scaled, double⟩ := exists_unitsAt_mul ⟨_, here.trans (Nat.mul_comm ..)⟩ 1
  exact ⟨scaled, by rw [double, here]; ring⟩

/--
A multiple of ten has no magnitude in common with a whole number up to `2 ^ 53` but itself: the next
magnitude is `2 ^ 53 + 2`, and the number between is odd.
-/
theorem eq_of_ofNat_eq {number other : Nat} (small : number ≤ 2 ^ 53) (tens : 10 ∣ other)
    (same : ofNat other = ofNat number) : other = number := by
  rcases Nat.lt_or_ge (2 ^ 53) other with large | inside
  · obtain ⟨past, here⟩ := exists_unitsAt_past
    have reached : past ≤ nearestPlace (other * unitsPerOne) 1 := by
      apply le_nearestPlace Nat.one_pos
      rw [here, Nat.mul_one]
      exact Nat.mul_le_mul_right _ (by omega)
    have missed : nearestPlace (number * unitsPerOne) 1 < past := by
      apply unitsAt_strictMono.lt_iff_lt.mp
      rw [unitsAt_nearestPlace small, here]
      exact Nat.mul_lt_mul_of_pos_right (by omega) unitsPerOne_pos
    have places : min (nearestPlace (other * unitsPerOne) 1) top =
        min (nearestPlace (number * unitsPerOne) 1) top := congrArg place same
    have finite := place_ofNat small
    omega
  · have units := congrArg Magnitude.units same
    rw [units_ofNat inside, units_ofNat small] at units
    exact Nat.eq_of_mul_eq_mul_right unitsPerOne_pos units

end Magnitude

namespace Binary64

/-- An integer in the range in which all integers are doubles. -/
def IsSmall (number : Int) : Prop :=
  number.natAbs ≤ 2 ^ 53

instance (number : Int) : Decidable (IsSmall number) :=
  inferInstanceAs (Decidable (number.natAbs ≤ 2 ^ 53))

/-- The double nearest to an integer; zero has no sign. -/
def ofInt (number : Int) : Binary64 :=
  .signed (decide (number < 0)) (.ofNat number.natAbs)

/-- The exact value of a double; NaN and the infinities have none. -/
def rational? : Binary64 → Option ℚ
  | .nan => none
  | .signed negative magnitude =>
      if magnitude.isFinite then some (if negative then -magnitude.value else magnitude.value)
      else none

variable {number left right : Int}

theorem isFinite_ofInt (small : IsSmall number) : (ofInt number).isFinite = true :=
  Magnitude.isFinite_ofNat small

theorem signedUnits_ofInt (small : IsSmall number) :
    signedUnits (decide (number < 0)) (.ofNat number.natAbs) = number * Magnitude.unitsPerOne := by
  rw [signedUnits, Magnitude.units_ofNat small]
  by_cases negative : number < 0
  · rw [if_pos (decide_eq_true negative), Nat.cast_mul, Int.ofNat_natAbs_of_nonpos negative.le,
      Int.neg_mul, Int.neg_neg]
  · rw [if_neg (by simpa using negative), Nat.cast_mul,
      Int.natAbs_of_nonneg (Int.not_lt.mp negative)]

/-- A small integer is a double, exactly. -/
theorem rational?_ofInt (small : IsSmall number) :
    (ofInt number).rational? = some (number : ℚ) := by
  rw [ofInt, rational?, if_pos (Magnitude.isFinite_ofNat small), Magnitude.value_ofNat small]
  by_cases negative : number < 0
  · rw [if_pos (decide_eq_true negative), ← Int.cast_natCast,
      Int.ofNat_natAbs_of_nonpos negative.le, Int.cast_neg, neg_neg]
  · rw [if_neg (by simpa using negative), ← Int.cast_natCast,
      Int.natAbs_of_nonneg (Int.not_lt.mp negative)]

/-! ## Sums and differences -/

/-- A whole number of ones rounds to the double nearest to the integer, where a zero has no sign. -/
theorem ofUnits_mul_unitsPerOne {zeroNegative : Bool}
    (sign : number = 0 → zeroNegative = false) :
    ofUnits zeroNegative (number * Magnitude.unitsPerOne) = ofInt number := by
  have positive : (0 : Int) < Magnitude.unitsPerOne := Int.natCast_pos.mpr Magnitude.unitsPerOne_pos
  by_cases none : number = 0
  · rw [sign none, none, Int.zero_mul, ofUnits, if_pos rfl]
    exact congrArg (signed false) Magnitude.ofNat_zero.symm
  · have some : number * Magnitude.unitsPerOne ≠ 0 := mul_ne_zero none positive.ne'
    have negative : number * Magnitude.unitsPerOne < 0 ↔ number < 0 :=
      ⟨fun below => neg_of_mul_neg_left below positive.le,
        fun below => mul_neg_of_neg_of_pos below positive⟩
    rw [ofUnits, if_neg some, Int.natAbs_mul, Int.natAbs_natCast, decide_eq_decide.mpr negative]
    rfl

/-- Doubles of whole numbers are added as integers, unless two negative zeros meet. -/
theorem add_eq_ofInt {leftNegative rightNegative : Bool} {leftMagnitude rightMagnitude : Magnitude}
    (leftFinite : leftMagnitude.isFinite = true) (rightFinite : rightMagnitude.isFinite = true)
    (leftUnits : signedUnits leftNegative leftMagnitude = left * Magnitude.unitsPerOne)
    (rightUnits : signedUnits rightNegative rightMagnitude = right * Magnitude.unitsPerOne)
    (sign : left + right = 0 → (leftNegative && rightNegative) = false) :
    add (signed leftNegative leftMagnitude) (signed rightNegative rightMagnitude) =
      ofInt (left + right) := by
  rw [add, if_pos (by rw [leftFinite, rightFinite]; rfl), leftUnits, rightUnits, ← Int.add_mul]
  exact ofUnits_mul_unitsPerOne sign

theorem add_ofInt (leftSmall : IsSmall left) (rightSmall : IsSmall right) :
    (ofInt left).add (ofInt right) = ofInt (left + right) := by
  apply add_eq_ofInt (isFinite_ofInt leftSmall) (isFinite_ofInt rightSmall)
    (signedUnits_ofInt leftSmall) (signedUnits_ofInt rightSmall)
  intro none
  rw [Bool.and_eq_false_iff, decide_eq_false_iff_not, decide_eq_false_iff_not]
  omega

/-- Past the range one is lost. -/
example : (ofInt (2 ^ 53)).add (ofInt 1) = ofInt (2 ^ 53) := by
  decide +kernel

theorem sub_ofInt (leftSmall : IsSmall left) (rightSmall : IsSmall right) :
    (ofInt left).sub (ofInt right) = ofInt (left - right) := by
  have opposite (negative : Bool) (magnitude : Magnitude) :
      signedUnits (!negative) magnitude = -signedUnits negative magnitude := by
    cases negative <;> simp [signedUnits]
  rw [Int.sub_eq_add_neg]
  apply add_eq_ofInt (isFinite_ofInt leftSmall) (isFinite_ofInt rightSmall)
    (signedUnits_ofInt leftSmall)
  · rw [opposite, signedUnits_ofInt rightSmall, Int.neg_mul]
  · intro none
    rw [Bool.and_eq_false_iff, Bool.not_eq_false', decide_eq_false_iff_not, decide_eq_true_eq]
    omega

/-! ## Order -/

/-- Doubles stand in the order of their numbers of units. -/
theorem order_lt_order_iff {leftNegative rightNegative : Bool} {left right : Magnitude} :
    order leftNegative left < order rightNegative right ↔
      signedUnits leftNegative left < signedUnits rightNegative right := by
  have grows : left.place < right.place ↔ left.units < right.units :=
    Magnitude.unitsAt_strictMono.lt_iff_lt.symm
  have falls : right.place < left.place ↔ right.units < left.units :=
    Magnitude.unitsAt_strictMono.lt_iff_lt.symm
  have positive (magnitude : Magnitude) : 0 < magnitude.place ↔ 0 < magnitude.units := by
    rw [Magnitude.units, ← Magnitude.unitsAt_strictMono.lt_iff_lt (a := 0), Magnitude.unitsAt_zero]
  have leftPositive := positive left
  have rightPositive := positive right
  unfold order signedUnits
  cases leftNegative <;> cases rightNegative <;> simp <;> omega

theorem less_ofInt (leftSmall : IsSmall left) (rightSmall : IsSmall right) :
    (ofInt left).less (ofInt right) = decide (left < right) := by
  have positive : (0 : Int) < Magnitude.unitsPerOne := Int.natCast_pos.mpr Magnitude.unitsPerOne_pos
  rw [ofInt, ofInt, less, decide_eq_decide, order_lt_order_iff, signedUnits_ofInt leftSmall,
    signedUnits_ofInt rightSmall]
  exact mul_lt_mul_iff_left₀ positive

end Binary64

end PrefixArith
