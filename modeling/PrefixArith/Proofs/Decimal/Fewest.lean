import Mathlib.Algebra.Order.Field.Power
import Mathlib.Data.List.DropRight
import PrefixArith.Proofs.Binary64.Neighbours
import PrefixArith.Proofs.Decimal.Grammar
import PrefixArith.Proofs.Decimal.Whole

/-!
# Shortest decimals have the fewest digits

What rounds to a magnitude lies without gaps, so the search looks at each grid for any member that
does, and it starts on a grid that is coarse enough. A decimal with fewer digits than the one that is
found would leave room for a power of ten between the two, on a coarser grid.
-/

namespace PrefixArith

namespace Decimal

/-! ## Significant digits -/

/-- How many digits a number has without the zeros at its end. -/
def significantDigits (significand : Nat) : Nat :=
  ((digits significand).rdropWhile (· == '0')).length

theorem rdropWhile_append_zeros (word : List Char) (count : Nat) :
    (word ++ zeros count).rdropWhile (· == '0') = word.rdropWhile (· == '0') := by
  induction count with
  | zero => rw [zeros, List.replicate_zero, List.append_nil]
  | succ count ih =>
      rw [zeros, List.replicate_succ', ← List.append_assoc, List.rdropWhile_concat_pos _ _ _ rfl]
      exact ih

/-- Scaling by a power of ten adds no significant digit. -/
theorem significantDigits_mul_power (significand exponent : Nat) :
    significantDigits (significand * power exponent) = significantDigits significand := by
  rcases Nat.eq_zero_or_pos significand with rfl | positive
  · rw [Nat.zero_mul]
  · rw [significantDigits, digits_mul_power positive, rdropWhile_append_zeros, significantDigits]

theorem significantDigits_le (significand : Nat) :
    significantDigits significand ≤ (digits significand).length :=
  (List.rdropWhile_prefix _ _).length_le

/-- A number is below the power of ten that has more digits, and only then. -/
theorem length_digits_le_iff {significand count : Nat} (positive : 0 < count) :
    (digits significand).length ≤ count ↔ significand < power count :=
  Nat.length_toDigits_le_iff (by decide) positive

/-- A number is made of its significant digits and of zeros behind them. -/
theorem exists_kept (significand : Nat) :
    ∃ kept trailing : Nat, significand = kept * power trailing ∧
      kept < power (significantDigits significand) := by
  obtain ⟨kept, trailing, cut⟩ : ∃ kept trailing, digits significand = kept ++ zeros trailing ∧
      kept.length = significantDigits significand := by
    refine ⟨_, ((digits significand).rtakeWhile (· == '0')).length, ?_, rfl⟩
    have dropped : (digits significand).rtakeWhile (· == '0') =
        zeros ((digits significand).rtakeWhile (· == '0')).length := by
      refine List.eq_replicate_iff.mpr ⟨rfl, fun character member => ?_⟩
      have isZero : (character == '0') = true := @List.mem_rtakeWhile_imp _ (· == '0') _ _ member
      exact beq_iff_eq.mp isZero
    rw [← dropped, List.rdropWhile_append_rtakeWhile]
  obtain ⟨cut, length⟩ := cut
  have product : significand = ofDigits kept * power trailing := by
    rw [← ofDigits_append_zeros, ← cut, ofDigits_digits]
  refine ⟨ofDigits kept, trailing, product, ?_⟩
  have positive : 0 < (digits significand).length :=
    List.length_pos_iff.mpr (Scientific.digits_ne_nil significand)
  have below := (length_digits_le_iff positive).mp (Nat.le_refl _)
  rw [cut, List.length_append, length, zeros, List.length_replicate, power_add] at below
  apply Nat.lt_of_mul_lt_mul_right
  rwa [← product]

namespace Shortest

variable {magnitude : Magnitude}

/-! ## What rounds to a magnitude -/

/-- Between two candidates that round to a magnitude, every other one does. -/
theorem roundsTo_between {low candidate high : Nat} (fromLow : roundsTo magnitude low = true)
    (fromHigh : roundsTo magnitude high = true) (above : low ≤ candidate)
    (below : candidate ≤ high) : roundsTo magnitude candidate = true := by
  by_cases even : magnitude.place % 2 = 0
  · simp only [roundsTo, if_pos even, Bool.and_eq_true, decide_eq_true_eq] at fromLow fromHigh ⊢
    exact ⟨fromLow.1.trans above, below.trans fromHigh.2⟩
  · simp only [roundsTo, if_neg even, Bool.and_eq_true, decide_eq_true_eq] at fromLow fromHigh ⊢
    exact ⟨fromLow.1.trans_le above, below.trans_lt fromHigh.2⟩

/-- What rounds to a magnitude other than zero is less than twice its value. -/
theorem lt_two_mul_value {candidate : Nat} (nonzero : magnitude.place ≠ 0)
    (rounds : roundsTo magnitude candidate = true) : candidate < 2 * value magnitude := by
  have reached : candidate ≤ middle magnitude.place := by
    by_cases even : magnitude.place % 2 = 0
    · simp only [roundsTo, if_pos even, Bool.and_eq_true, decide_eq_true_eq] at rounds
      exact rounds.2
    · simp only [roundsTo, if_neg even, Bool.and_eq_true, decide_eq_true_eq] at rounds
      exact rounds.2.le
  have positive : 0 < Magnitude.unitsAt magnitude.place := by
    have grows := Magnitude.unitsAt_strictMono (Nat.pos_of_ne_zero nonzero)
    rwa [Magnitude.unitsAt_zero] at grows
  have close : Magnitude.spacing magnitude.place ≤ Magnitude.unitsAt magnitude.place :=
    Nat.le_of_dvd positive (Magnitude.spacing_dvd_unitsAt _)
  calc
    candidate ≤ middle magnitude.place := reached
    _ < 2 * (2 * Magnitude.unitsAt magnitude.place) * halfUnit := by
      rw [middle, Magnitude.unitsAt_add_spacing]
      exact Nat.mul_lt_mul_of_pos_right (by omega) halfUnit_pos
    _ = 2 * value magnitude := by rw [value, Magnitude.units, Nat.mul_assoc]

/-- A grid without a candidate has no member next to the value that rounds to the magnitude. -/
theorem onGrid?_eq_none {tie : Tie} {step : Nat} (missing : onGrid? tie magnitude step = none) :
    roundsTo magnitude (value magnitude / step * step) = false ∧
      roundsTo magnitude ((value magnitude / step + 1) * step) = false := by
  unfold onGrid? at missing
  dsimp only at missing
  split at missing
  · cases missing
  · cases missing
  · cases missing
  · next below above => exact ⟨below, above⟩

/-- A grid with any member that rounds to the magnitude is not passed over. -/
theorem onGrid?_ne_none (tie : Tie) {step multiplier : Nat} (positive : 0 < step)
    (nonzero : magnitude.place ≠ 0) (rounds : roundsTo magnitude (multiplier * step) = true) :
    onGrid? tie magnitude step ≠ none := by
  intro missing
  obtain ⟨notBelow, notAbove⟩ := onGrid?_eq_none missing
  have exact : roundsTo magnitude (value magnitude) = true :=
    (roundsTo_iff nonzero _).mpr (value_roundsTo magnitude)
  rcases Nat.lt_or_ge (value magnitude / step) multiplier with beyond | under
  · have atLeast : value magnitude ≤ (value magnitude / step + 1) * step := by
      rw [Nat.add_mul, Nat.one_mul]
      exact (Nat.lt_div_mul_add positive).le
    have reached : (value magnitude / step + 1) * step ≤ multiplier * step :=
      Nat.mul_le_mul_right step beyond
    rw [roundsTo_between exact rounds atLeast reached] at notAbove
    cases notAbove
  · have reached : multiplier * step ≤ value magnitude / step * step :=
      Nat.mul_le_mul_right step under
    rw [roundsTo_between rounds exact reached (Nat.div_mul_le_self _ _)] at notBelow
    cases notBelow

/-! ## The grid on which the search ends -/

/-- The search starts on a grid that is coarser than twice the value. -/
theorem le_coarseGrid {grid bound : Nat} (less : power grid < 2 * bound) :
    grid ≤ coarseGrid bound := by
  by_contra finer
  generalize width : bound.log2 + 1 = bits at finer
  have narrow : power grid < 2 ^ (bits + 1) := by
    calc
      power grid < 2 * bound := less
      _ ≤ 2 * 2 ^ bits := Nat.mul_le_mul_left 2 (width ▸ Nat.lt_log2_self.le)
      _ = 2 ^ (bits + 1) := (Nat.pow_succ').symm
  have wide : 28 * (bits + 1) ≤ grid * 93 := by
    rw [coarseGrid, width] at finer
    omega
  -- A power of `2 ^ 93` is no greater than that power of `10 ^ 28`.
  have crossed : (2 ^ (bits + 1)) ^ 93 ≤ power grid ^ 93 := by
    calc
      (2 ^ (bits + 1)) ^ 93 = (2 ^ 93) ^ (bits + 1) := Nat.pow_right_comm ..
      _ ≤ (10 ^ 28) ^ (bits + 1) := Nat.pow_le_pow_left (by decide) _
      _ = 10 ^ (28 * (bits + 1)) := (Nat.pow_mul ..).symm
      _ ≤ 10 ^ (grid * 93) := Nat.pow_le_pow_right (by decide) wide
      _ = power grid ^ 93 := Nat.pow_mul ..
  exact absurd narrow (Nat.not_lt.mpr ((Nat.pow_le_pow_iff_left (by decide)).mp crossed))

/-- The search ends on no finer grid than any that has a member which rounds to the magnitude. -/
theorem le_exponent_search (tie : Tie) (nonzero : magnitude.place ≠ 0)
    {grid coarsest multiplier : Nat} (within : grid ≤ coarsest)
    (rounds : roundsTo magnitude (multiplier * power grid) = true) :
    (grid : Int) - places ≤ (search tie magnitude coarsest).exponent := by
  induction coarsest with
  | zero =>
      rw [search]
      dsimp only
      omega
  | succ coarsest finer =>
      rw [search]
      split
      · dsimp only
        omega
      · next missing =>
          rcases Nat.lt_or_eq_of_le within with less | same
          · exact finer (Nat.le_of_lt_succ less)
          · rw [same] at rounds
            exact absurd missing (onGrid?_ne_none tie (power_pos _) nonzero rounds)

/-- No finer grid is looked at than that of `10 ^ -1075`. -/
theorem neg_places_le_exponent_search (tie : Tie) (nonzero : magnitude.place ≠ 0)
    (coarsest : Nat) : -(places : Int) ≤ (search tie magnitude coarsest).exponent := by
  have exact : roundsTo magnitude (value magnitude * power 0) = true := by
    rw [power_zero, Nat.mul_one]
    exact (roundsTo_iff nonzero _).mpr (value_roundsTo magnitude)
  have reached := le_exponent_search tie nonzero (Nat.zero_le coarsest) exact
  omega

end Shortest

/-! ## Fewest digits -/

variable {magnitude : Magnitude} {significand : Nat} {exponent : Int}

/-- What lies on a grid of the search and rounds to a magnitude is a candidate for it. -/
theorem Shortest.roundsTo_of_isNearest (nonzero : magnitude.place ≠ 0)
    (finite : magnitude.isFinite = true) {shift : Nat}
    (nearest : magnitude.IsNearest (significand * 10 ^ ((shift : Int) - places))) :
    roundsTo magnitude (significand * power shift) = true := by
  have same := (magnitude_isNearest significand ((shift : Int) - places)).unique nearest
  rw [magnitude_shift] at same
  have capped : min (Magnitude.nearestPlace _ _) Magnitude.top = magnitude.place :=
    congrArg Magnitude.place same
  rw [Magnitude.isFinite, decide_eq_true_eq] at finite
  rw [roundsTo_iff nonzero, ← Magnitude.nearestPlace_eq_iff unit_pos]
  omega

/-- No decimal that rounds to a magnitude lies on a coarser grid than the shortest. -/
theorem le_exponent_shortest (tie : Tie) (nonzero : magnitude.place ≠ 0)
    (finite : magnitude.isFinite = true) (positive : 0 < significand)
    (nearest : magnitude.IsNearest (significand * 10 ^ exponent)) :
    exponent ≤ (shortest tie magnitude).exponent := by
  rw [shortest, if_neg nonzero]
  rcases Int.lt_or_le exponent (-Shortest.places) with fine | coarse
  · exact fine.le.trans (Shortest.neg_places_le_exponent_search tie nonzero _)
  · obtain ⟨shift, shifted⟩ := Int.eq_ofNat_of_zero_le (Int.sub_nonneg_of_le coarse)
    obtain rfl : exponent = (shift : Int) - Shortest.places := by omega
    have rounds := Shortest.roundsTo_of_isNearest nonzero finite nearest
    refine Shortest.le_exponent_search tie nonzero (Shortest.le_coarseGrid ?_) rounds
    calc
      power shift ≤ significand * power shift := Nat.le_mul_of_pos_left _ positive
      _ < 2 * Shortest.value magnitude := Shortest.lt_two_mul_value nonzero rounds

theorem shortest_isNearest (tie : Tie) (magnitude : Magnitude) :
    magnitude.IsNearest
      ((shortest tie magnitude).significand * 10 ^ (shortest tie magnitude).exponent) := by
  have nearest := magnitude_isNearest (shortest tie magnitude).significand
    (shortest tie magnitude).exponent
  rwa [magnitude_shortest] at nearest

/-- A number between two that round to a magnitude rounds to it. -/
theorem isNearest_between {low target high : ℚ} (toLow : magnitude.IsNearest low)
    (toHigh : magnitude.IsNearest high) {other : Magnitude} (toTarget : other.IsNearest target)
    (above : low ≤ target) (below : target ≤ high) : magnitude.IsNearest target := by
  have atLeast := Magnitude.value_le_value_iff.mp (toLow.mono toTarget above)
  have atMost := Magnitude.value_le_value_iff.mp (toTarget.mono toHigh below)
  rwa [Magnitude.eq_of_place_eq (Nat.le_antisymm atLeast atMost)]

theorem pos_of_isNearest (nonzero : magnitude.place ≠ 0)
    (nearest : magnitude.IsNearest (significand * 10 ^ exponent)) : 0 < significand := by
  apply Nat.pos_of_ne_zero
  rintro rfl
  have zero : Magnitude.zero.IsNearest ((0 : Nat) * 10 ^ exponent) := by
    rw [Nat.cast_zero, zero_mul, ← zero_mul ((10 : ℚ) ^ (0 : Int)), ← Nat.cast_zero]
    exact magnitude_isNearest 0 0
  rw [nearest.unique zero] at nonzero
  exact nonzero rfl

/-- No decimal that rounds to a magnitude has fewer significant digits than the shortest. -/
theorem length_digits_shortest_le (tie : Tie) (nonzero : magnitude.place ≠ 0)
    (finite : magnitude.isFinite = true)
    (nearest : magnitude.IsNearest (significand * 10 ^ exponent)) :
    (digits (shortest tie magnitude).significand).length ≤ significantDigits significand := by
  obtain ⟨kept, trailing, product, few⟩ := exists_kept significand
  generalize significantDigits significand = count at few ⊢
  have value : (significand * 10 ^ exponent : ℚ) = kept * 10 ^ (exponent + trailing) := by
    rw [product, power, Nat.pow_eq, zpow_add₀ (by norm_num), zpow_natCast]
    push_cast
    ring
  rw [value] at nearest
  have positive := pos_of_isNearest nonzero nearest
  have coarse := le_exponent_shortest tie nonzero finite positive nearest
  have found := shortest_isNearest tie magnitude
  generalize (shortest tie magnitude).significand = shortestDigits at found ⊢
  generalize ends : (shortest tie magnitude).exponent = last at found coarse
  have some : 0 < count := by
    apply Nat.pos_of_ne_zero
    rintro rfl
    exact absurd few (Nat.not_lt.mpr positive)
  by_contra longer
  rw [length_digits_le_iff some, Nat.not_lt] at longer
  -- A power of ten lies between the two decimals.
  have above : (kept * 10 ^ (exponent + trailing) : ℚ) ≤ (1 : Nat) * 10 ^ (count + last) := by
    calc
      (kept * 10 ^ (exponent + trailing) : ℚ) ≤ 10 ^ count * 10 ^ last := by
        apply mul_le_mul
        · exact_mod_cast few.le
        · exact zpow_le_zpow_right₀ (by norm_num) coarse
        · positivity
        · positivity
      _ = (1 : Nat) * 10 ^ (count + last) := by
        rw [Nat.cast_one, one_mul, zpow_add₀ (by norm_num), zpow_natCast]
  have below : ((1 : Nat) * 10 ^ (count + last) : ℚ) ≤ shortestDigits * 10 ^ last := by
    rw [Nat.cast_one, one_mul, zpow_add₀ (by norm_num), zpow_natCast]
    apply mul_le_mul_of_nonneg_right _ (by positivity)
    exact_mod_cast longer
  have between := isNearest_between nearest found (magnitude_isNearest 1 (count + last)) above below
  have reached := le_exponent_shortest tie nonzero finite Nat.one_pos between
  omega

end Decimal

end PrefixArith
