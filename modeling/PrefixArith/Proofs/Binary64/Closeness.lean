import Mathlib.Algebra.Order.Field.Power
import PrefixArith.Proofs.Binary64.Integer

/-!
# Places between nearby numbers

One rounding changes a number by a factor of at most `1 + 2 ^ -53`, and from one place of the row to
the next the value grows by more than that factor. So the factor measures both: numbers that are apart
by its `n`-th power round to places that are no more than `n` apart. What lies well above the power of
two before it is changed by less than that factor.
-/

namespace PrefixArith

namespace Magnitude

/-- The factor by which one rounding can be off, and by which the row grows at least. -/
def growth : ℚ := 1 + 1 / 2 ^ 53

theorem one_le_growth : 1 ≤ growth := by
  norm_num [growth]

theorem growth_pos : 0 < growth :=
  lt_of_lt_of_le one_pos one_le_growth

/-- Two numbers are apart by no more than a factor. -/
structure Near (factor left right : ℚ) : Prop where
  one_le : 1 ≤ factor
  le_left : left ≤ right * factor
  le_right : right ≤ left * factor

/-- Two magnitudes are no more than some places apart. -/
structure IsWithin (count : Nat) (left right : Magnitude) : Prop where
  le_left : left.place ≤ right.place + count
  le_right : right.place ≤ left.place + count

theorem IsWithin.refl (count : Nat) (magnitude : Magnitude) : IsWithin count magnitude magnitude :=
  ⟨Nat.le_add_right _ _, Nat.le_add_right _ _⟩

/-! ## Growth of the row -/

/-- The value at a place is less than `2 ^ 53` times the distance to the next one. -/
theorem unitsAt_lt_mul_spacing (place : Nat) : unitsAt place < 2 ^ 53 * spacing place := by
  rcases Nat.lt_or_ge place placesPerExponent with small | normal
  · rw [unitsAt_of_lt small, spacing_subnormal small, Nat.mul_one]
    exact small.trans (by decide)
  · obtain ⟨exponent, fraction, small, rfl⟩ := exists_normal normal
    rw [unitsAt_normal exponent small, spacing_normal exponent small]
    apply Nat.mul_lt_mul_of_pos_right _ (Nat.two_pow_pos exponent)
    rw [placesPerExponent_eq] at small ⊢
    omega

theorem valueAt_succ (place : Nat) :
    valueAt (place + 1) = valueAt place + spacing place / unitsPerOne := by
  rw [valueAt, unitsAt_add_spacing, Nat.cast_add, add_div]
  rfl

theorem valueAt_nonneg (place : Nat) : 0 ≤ valueAt place :=
  div_nonneg (Nat.cast_nonneg _) cast_unitsPerOne_pos.le

theorem growth_mul_valueAt_lt (place : Nat) : valueAt place * growth < valueAt (place + 1) := by
  have less : (unitsAt place : ℚ) < 2 ^ 53 * spacing place := by
    exact_mod_cast unitsAt_lt_mul_spacing place
  have scaled : valueAt place < 2 ^ 53 * (spacing place / unitsPerOne) := by
    rw [valueAt, ← mul_div_assoc]
    exact div_lt_div_of_pos_right less cast_unitsPerOne_pos
  rw [valueAt_succ, growth]
  linarith

theorem growth_pow_mul_valueAt_le (place count : Nat) :
    valueAt place * growth ^ count ≤ valueAt (place + count) := by
  induction count with
  | zero => rw [pow_zero, mul_one, Nat.add_zero]
  | succ count ih =>
      calc
        valueAt place * growth ^ (count + 1) = valueAt place * growth ^ count * growth := by
          rw [pow_succ, mul_assoc]
        _ ≤ valueAt (place + count) * growth := mul_le_mul_of_nonneg_right ih growth_pos.le
        _ ≤ valueAt (place + (count + 1)) := (growth_mul_valueAt_lt _).le

theorem growth_pow_mul_valueAt_lt (place : Nat) {count : Nat} (some : 0 < count) :
    valueAt place * growth ^ count < valueAt (place + count) := by
  obtain ⟨less, rfl⟩ := Nat.exists_eq_succ_of_ne_zero some.ne'
  calc
    valueAt place * growth ^ (less + 1) = valueAt place * growth ^ less * growth := by
      rw [pow_succ, mul_assoc]
    _ ≤ valueAt (place + less) * growth :=
      mul_le_mul_of_nonneg_right (growth_pow_mul_valueAt_le place less) growth_pos.le
    _ < valueAt (place + (less + 1)) := growth_mul_valueAt_lt _

/-! ## Places of near numbers -/

variable {left right : Magnitude} {lower upper : ℚ} {count : Nat}

/-- A number that is greater by no more than a power of the factor rounds no more places later. -/
theorem place_le_add (toLeft : left.IsNearest lower) (toRight : right.IsNearest upper)
    (some : 0 < count) (apart : upper ≤ lower * growth ^ count) :
    right.place ≤ left.place + count := by
  by_contra beyond
  rw [Nat.not_le] at beyond
  -- The middles next to the two places are apart by `count` places on both sides, and so by more
  -- than the factor.
  have inRow : left.place + count ≤ top := beyond.le.trans right.place_le_top
  have nextInRow : left.place + 1 ≤ top := by omega
  have under := ((isNearest_iff.mp toLeft).2 (ofPlace (left.place + 1))
    (by rw [place_ofPlace nextInRow]; exact Nat.lt_succ_self _)).1
  have above := ((isNearest_iff.mp toRight).1 (ofPlace (left.place + count))
    (by rwa [place_ofPlace inRow])).1
  rw [value, value, place_ofPlace nextInRow] at under
  rw [value, value, place_ofPlace inRow] at above
  have last : valueAt (left.place + 1 + count) ≤ valueAt right.place :=
    valueAt_strictMono.monotone (by omega)
  have first := growth_pow_mul_valueAt_le left.place count
  have second := growth_pow_mul_valueAt_lt (left.place + 1) some
  have factor : 0 < growth ^ count := pow_pos growth_pos count
  nlinarith

theorem isWithin_of_near (toLeft : left.IsNearest lower) (toRight : right.IsNearest upper)
    (some : 0 < count) (near : Near (growth ^ count) lower upper) : IsWithin count left right where
  le_left := place_le_add toRight toLeft some near.le_left
  le_right := place_le_add toLeft toRight some near.le_right

/-! ## The error of one rounding -/

theorem isNearest_value (magnitude : Magnitude) : magnitude.IsNearest magnitude.value where
  closest other := by
    rw [sub_self, abs_zero]
    exact abs_nonneg _
  even other same := by
    left
    rw [sub_self, abs_zero, abs_eq_zero, sub_eq_zero] at same
    exact eq_of_place_eq (valueAt_strictMono.injective same)

/-- The least magnitude with a leading bit. -/
def leastNormal : Magnitude := ofPlace placesPerExponent

theorem place_leastNormal : leastNormal.place = placesPerExponent := by
  decide

/-- At a place with a leading bit, the distance to the next one is small against the value. -/
theorem spacing_div_le {place : Nat} (normal : placesPerExponent ≤ place) :
    (spacing place / unitsPerOne : ℚ) ≤ valueAt place / 2 ^ 52 := by
  have counted : (2 ^ 52 * spacing place : ℚ) ≤ unitsAt place := by
    have whole := placesPerExponent_mul_spacing_le normal
    rw [placesPerExponent_eq] at whole
    exact_mod_cast whole
  rw [valueAt, div_div, mul_comm, ← div_div]
  apply div_le_div_of_nonneg_right _ cast_unitsPerOne_pos.le
  rwa [le_div_iff₀ (by positivity), mul_comm]

variable {magnitude : Magnitude} {target : ℚ}

/-- What is nearest to a number with a leading bit has one itself. -/
theorem IsNearest.place_ge (nearest : magnitude.IsNearest target)
    (normal : leastNormal.value ≤ target) : placesPerExponent ≤ magnitude.place := by
  rw [← place_leastNormal, ← value_le_value_iff]
  exact (isNearest_value leastNormal).mono nearest normal

/-- A magnitude with a leading bit is near to each number to which it is nearest. -/
theorem IsNearest.near (nearest : magnitude.IsNearest target)
    (finite : magnitude.isFinite = true) (normal : leastNormal.value ≤ target) :
    Near growth magnitude.value target := by
  have reached := nearest.place_ge normal
  have inside : magnitude.place + 1 ≤ top := of_decide_eq_true finite
  rw [isNearest_iff] at nearest
  refine ⟨one_le_growth, ?_, ?_⟩
  · rcases Nat.lt_or_eq_of_le reached with later | least
    · obtain ⟨before, is⟩ : ∃ before, magnitude.place = before + 1 :=
        Nat.exists_eq_succ_of_ne_zero (by omega)
      have inRow : before ≤ top := by omega
      have above := (nearest.1 (ofPlace before) (by rw [place_ofPlace inRow]; omega)).1
      have close := spacing_div_le (Nat.le_of_lt_succ (is ▸ later))
      have positive := valueAt_nonneg before
      rw [value, value, place_ofPlace inRow, is, valueAt_succ] at above
      rw [value, is, valueAt_succ, growth]
      linarith
    -- The place before the least one with a leading bit is not that close to it.
    · have same : magnitude.value = leastNormal.value := by
        rw [value, value, place_leastNormal, least]
      have positive : 0 ≤ target := (valueAt_nonneg _).trans normal
      rw [same]
      exact normal.trans (le_mul_of_one_le_right positive one_le_growth)
  · have under := (nearest.2 (ofPlace (magnitude.place + 1))
      (by rw [place_ofPlace inside]; exact Nat.lt_succ_self _)).1
    have close := spacing_div_le reached
    rw [value, value, place_ofPlace inside, valueAt_succ] at under
    rw [value, growth]
    linarith

/-! ## The error against the distance of the places -/

/-- The distance from the place of a magnitude to the next one. -/
def step (magnitude : Magnitude) : ℚ :=
  spacing magnitude.place / unitsPerOne

theorem step_pos (magnitude : Magnitude) : 0 < magnitude.step :=
  div_pos (Nat.cast_pos.mpr (Nat.two_pow_pos _)) cast_unitsPerOne_pos

theorem step_le_or_le (left right : Magnitude) (shift : Nat) :
    left.step ≤ right.step * 2 ^ shift ∨ right.step * 2 ^ (shift + 1) ≤ left.step := by
  rw [step, step, div_mul_eq_mul_div, div_mul_eq_mul_div,
    div_le_div_iff_of_pos_right cast_unitsPerOne_pos,
    div_le_div_iff_of_pos_right cast_unitsPerOne_pos]
  exact_mod_cast spacing_le_or_le left.place right.place shift

/-- What is nearest to a number with a leading bit is `2 ^ 52` times its distance at least. -/
theorem IsNearest.mul_step_le (nearest : magnitude.IsNearest target)
    (normal : leastNormal.value ≤ target) : 2 ^ 52 * magnitude.step ≤ magnitude.value := by
  have close := spacing_div_le (nearest.place_ge normal)
  rw [step, value]
  linarith

/-- A number is rounded by no more than half the distance to the next place. -/
theorem IsNearest.two_mul_abs_sub_le (nearest : magnitude.IsNearest target)
    (finite : magnitude.isFinite = true) (nonnegative : 0 ≤ target) :
    2 * |magnitude.value - target| ≤ magnitude.step := by
  have inside : magnitude.place + 1 ≤ top := of_decide_eq_true finite
  rw [isNearest_iff] at nearest
  have below := (nearest.2 (ofPlace (magnitude.place + 1))
    (by rw [place_ofPlace inside]; exact Nat.lt_succ_self _)).1
  rw [value, value, place_ofPlace inside, valueAt_succ] at below
  have above : 2 * (magnitude.value - target) ≤ magnitude.step := by
    rcases Nat.eq_zero_or_pos magnitude.place with zero | some
    · have none : magnitude.value = 0 :=
        value_of_units_eq_zero (by rw [units, zero, unitsAt_zero])
      have positive := magnitude.step_pos
      linarith
    · obtain ⟨before, is⟩ := Nat.exists_eq_succ_of_ne_zero some.ne'
      have inRow : before ≤ top := by omega
      have under := (nearest.1 (ofPlace before) (by rw [place_ofPlace inRow]; omega)).1
      have narrower : (spacing before / unitsPerOne : ℚ) ≤ magnitude.step := by
        apply div_le_div_of_nonneg_right _ cast_unitsPerOne_pos.le
        exact_mod_cast spacing_mono (Nat.le_of_lt (is ▸ Nat.lt_succ_self before))
      have value_eq : magnitude.value = valueAt before + spacing before / unitsPerOne := by
        rw [value, is, Nat.succ_eq_add_one, valueAt_succ]
      rw [value, place_ofPlace inRow] at under
      linarith
  rcases abs_choice (magnitude.value - target) with same | negated
  · rw [same]
    exact above
  · rw [negated, value, step]
    linarith

/-- The more distances make up a magnitude, the nearer it is to what it is nearest to. -/
theorem IsNearest.near_of_step {width : ℚ} (nearest : magnitude.IsNearest target)
    (finite : magnitude.isFinite = true) (nonnegative : 0 ≤ target) (wide : 1 ≤ width)
    (reached : width * magnitude.step ≤ magnitude.value) :
    Near (1 + 1 / (2 * width - 1)) magnitude.value target := by
  obtain ⟨below, above⟩ := abs_le.mp
    ((le_div_iff₀' two_pos).mpr (nearest.two_mul_abs_sub_le finite nonnegative))
  have positive := magnitude.step_pos
  have room : 0 < 2 * width - 1 := by linarith
  have half : magnitude.step / 2 ≤ target / (2 * width - 1) := by
    rw [le_div_iff₀ room]
    linarith
  have less : magnitude.step / 2 ≤ magnitude.value / (2 * width - 1) := by
    rw [le_div_iff₀ room]
    linarith
  refine ⟨le_add_of_nonneg_right (one_div_pos.mpr room).le, ?_, ?_⟩
  · rw [mul_add, mul_one, mul_one_div]
    linarith
  · rw [mul_add, mul_one, mul_one_div]
    linarith

/-! ## Products and quotients of near numbers -/

namespace Near

variable {factor more left right other otherRight : ℚ}

theorem refl (number : ℚ) : Near 1 number number :=
  ⟨le_rfl, (mul_one number).ge, (mul_one number).ge⟩

theorem symm (near : Near factor left right) : Near factor right left :=
  ⟨near.one_le, near.le_right, near.le_left⟩

theorem factor_nonneg (near : Near factor left right) : 0 ≤ factor :=
  zero_le_one.trans near.one_le

theorem mono (near : Near factor left right) (positive : 0 ≤ left) (positiveRight : 0 ≤ right)
    (grows : factor ≤ more) : Near more left right where
  one_le := near.one_le.trans grows
  le_left := near.le_left.trans (mul_le_mul_of_nonneg_left grows positiveRight)
  le_right := near.le_right.trans (mul_le_mul_of_nonneg_left grows positive)

theorem trans {middle : ℚ} (first : Near factor left middle) (second : Near more middle right) :
    Near (factor * more) left right where
  one_le := one_le_mul_of_one_le_of_one_le first.one_le second.one_le
  le_left := by
    calc
      left ≤ middle * factor := first.le_left
      _ ≤ right * more * factor := mul_le_mul_of_nonneg_right second.le_left first.factor_nonneg
      _ = right * (factor * more) := by ring
  le_right := by
    calc
      right ≤ middle * more := second.le_right
      _ ≤ left * factor * more := mul_le_mul_of_nonneg_right first.le_right second.factor_nonneg
      _ = left * (factor * more) := by ring

theorem pos_left (near : Near factor left right) (positive : 0 < right) : 0 < left := by
  by_contra none
  have nonneg := near.factor_nonneg
  have bound := near.le_right
  nlinarith

theorem mul (first : Near factor left right) (second : Near more other otherRight)
    (positive : 0 ≤ left) (positiveRight : 0 ≤ right) (otherPositive : 0 ≤ other)
    (otherPositiveRight : 0 ≤ otherRight) :
    Near (factor * more) (left * other) (right * otherRight) where
  one_le := one_le_mul_of_one_le_of_one_le first.one_le second.one_le
  le_left := by
    calc
      left * other ≤ right * factor * (otherRight * more) :=
        mul_le_mul first.le_left second.le_left otherPositive
          (mul_nonneg positiveRight first.factor_nonneg)
      _ = right * otherRight * (factor * more) := by ring
  le_right := by
    calc
      right * otherRight ≤ left * factor * (other * more) :=
        mul_le_mul first.le_right second.le_right otherPositiveRight
          (mul_nonneg positive first.factor_nonneg)
      _ = left * other * (factor * more) := by ring

theorem inv (near : Near factor left right) (positive : 0 < left) (positiveRight : 0 < right) :
    Near factor left⁻¹ right⁻¹ where
  one_le := near.one_le
  le_left := by
    rw [inv_mul_eq_div, inv_le_iff_one_le_mul₀ positive, div_mul_eq_mul_div, one_le_div₀ positiveRight,
      mul_comm]
    exact near.le_right
  le_right := by
    rw [inv_mul_eq_div, inv_le_iff_one_le_mul₀ positiveRight, div_mul_eq_mul_div,
      one_le_div₀ positive, mul_comm]
    exact near.le_left

theorem div (first : Near factor left right) (second : Near more other otherRight)
    (positive : 0 ≤ left) (positiveRight : 0 ≤ right) (otherPositive : 0 < other)
    (otherPositiveRight : 0 < otherRight) :
    Near (factor * more) (left / other) (right / otherRight) := by
  rw [div_eq_mul_inv, div_eq_mul_inv]
  exact first.mul (second.inv otherPositive otherPositiveRight) positive positiveRight
    (inv_nonneg.mpr otherPositive.le) (inv_nonneg.mpr otherPositiveRight.le)

end Near

/-- The rounded quotient is nearest to the exact one. -/
theorem div_isNearest (left : Magnitude) {right : Magnitude} (positive : 0 < right.units) :
    (left.div right).IsNearest (left.value / right.value) := by
  have rounded := nearest_isNearest (left.units * unitsPerOne) positive
  have exact : ((left.units * unitsPerOne : Nat) / (right.units * unitsPerOne : ℚ) : ℚ) =
      left.value / right.value := by
    rw [Nat.cast_mul, mul_div_mul_right _ _ cast_unitsPerOne_pos.ne', value, value, valueAt, valueAt,
      div_div_div_cancel_right₀ cast_unitsPerOne_pos.ne']
    rfl
  rwa [exact] at rounded

end Magnitude

end PrefixArith
