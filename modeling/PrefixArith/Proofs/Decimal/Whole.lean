import PrefixArith.Proofs.Binary64.Integer
import PrefixArith.Proofs.Numeral
import PrefixArith.Proofs.Text.Line

/-!
# Shortest decimals of whole numbers

A whole number up to `2 ^ 53` is its own shortest decimal, but for the zeros at its end. A grid
coarser than that of the ones has only multiples of ten, and none but the number itself has the same
magnitude; on the grid of the ones it is found exactly. Laid out without a point, with the zeros put
back, the decimal is the numeral of the number.
-/

namespace PrefixArith

namespace Decimal

/-- Zeros after the numeral of a positive number scale the number up. -/
theorem digits_mul_power {significand : Nat} (positive : 0 < significand) (exponent : Nat) :
    digits (significand * power exponent) = digits significand ++ zeros exponent := by
  induction exponent with
  | zero => rw [power_zero, Nat.mul_one, zeros, List.replicate_zero, List.append_nil]
  | succ exponent ih =>
      have scaled : 0 < significand * power exponent := Nat.mul_pos positive (power_pos exponent)
      have shifted : significand * power (exponent + 1) =
          10 * (significand * power exponent) + 0 := by
        rw [power_add, Nat.add_zero, ← Nat.mul_assoc, Nat.mul_comm]
        rfl
      calc
        digits (significand * power (exponent + 1))
            = digits (10 * (significand * power exponent) + 0) := by rw [shifted]
        _ = digits (significand * power exponent) ++ digits 0 :=
          (Nat.toDigits_append_toDigits (by decide) scaled (by decide)).symm
        _ = digits significand ++ (zeros exponent ++ ['0']) := by
          rw [ih, List.append_assoc]
          rfl
        _ = digits significand ++ zeros (exponent + 1) := by
          rw [zeros, zeros, List.replicate_succ']

namespace Shortest

variable {tie : Tie} {magnitude : Magnitude} {number : Nat}

theorem nearer_mul (tie : Tie) {step : Nat} (positive : 0 < step) (multiplier : Nat) :
    nearer tie step (multiplier * step) = multiplier := by
  have none : compare (2 * (multiplier * step % step)) step = .lt := by
    rw [Nat.mul_mod_left]
    exact Nat.compare_eq_lt.mpr positive
  unfold nearer
  dsimp only
  rw [none]
  exact Nat.mul_div_cancel _ positive

/-- A value that is on a grid is found on it. -/
theorem onGrid?_mul {step multiplier : Nat} (positive : 0 < step) (nonzero : magnitude.place ≠ 0)
    (exact : value magnitude = multiplier * step) :
    onGrid? tie magnitude step = some multiplier := by
  have here : roundsTo magnitude (multiplier * step) = true := by
    rw [← exact, roundsTo_iff nonzero]
    exact value_roundsTo magnitude
  unfold onGrid?
  dsimp only
  rw [exact, Nat.mul_div_cancel _ positive, here]
  cases roundsTo magnitude ((multiplier + 1) * step) with
  | false => rfl
  | true => exact congrArg some (nearer_mul tie positive multiplier)

/-- What is found on a grid coarser than the ones is, at that grid, a number of the magnitude. -/
theorem ofNat_of_onGrid? {exponent multiplier : Nat} (nonzero : magnitude.place ≠ 0)
    (found : onGrid? tie magnitude (power (places + exponent)) = some multiplier) :
    Magnitude.ofNat (multiplier * power exponent) = magnitude := by
  have shift : ((places + exponent : Nat) : Int) - places = .ofNat exponent := by
    rw [Int.ofNat_eq_natCast]
    omega
  calc
    Magnitude.ofNat (multiplier * power exponent)
        = Decimal.magnitude multiplier (.ofNat exponent) := (magnitude_ofNat ..).symm
    _ = .nearest (multiplier * power (places + exponent)) (2 * halfUnit) := by
      rw [← shift, magnitude_shift]
    _ = magnitude :=
      Magnitude.nearest_eq_of_roundsTo unit_pos ((roundsTo_iff nonzero _).mp (onGrid?_sound found))

theorem value_ofNat (small : number ≤ 2 ^ 53) :
    value (.ofNat number) = number * power places := by
  rw [value, Magnitude.units_ofNat small, ← unitsPerOne_mul_halfUnit, Nat.mul_comm 2,
    Nat.mul_assoc, Nat.mul_assoc]

theorem place_ofNat_ne_zero (small : number ≤ 2 ^ 53) (positive : 0 < number) :
    (Magnitude.ofNat number).place ≠ 0 := by
  intro zero
  have units := Magnitude.units_ofNat small
  rw [Magnitude.units, zero, Magnitude.unitsAt_zero] at units
  exact Nat.ne_of_lt (Nat.mul_pos positive Magnitude.unitsPerOne_pos) units

/-- The search for a whole number starts on a grid at least as coarse as that of the ones. -/
theorem places_le_coarseGrid {bound : Nat} (large : power places ≤ bound) :
    places ≤ coarseGrid bound := by
  have bits : 3567 ≤ (power places).log2 := by decide +kernel
  have more : (power places).log2 ≤ bound.log2 := by
    have nonzero : bound ≠ 0 := Nat.ne_of_gt (Nat.lt_of_lt_of_le (power_pos places) large)
    exact (Nat.le_log2 nonzero).mpr
      (Nat.le_trans (Nat.log2_self_le (Nat.ne_of_gt (power_pos places))) large)
  rw [places, coarseGrid]
  omega

/--
From any grid at least as coarse as that of the ones, the search for a whole number ends on a member
that is the number itself.
-/
theorem search_whole (tie : Tie) (small : number ≤ 2 ^ 53) (positive : 0 < number) (coarser : Nat) :
    ∃ significand exponent : Nat,
      search tie (.ofNat number) (places + coarser) = ⟨significand, .ofNat exponent⟩ ∧
        significand * power exponent = number := by
  have nonzero := place_ofNat_ne_zero small positive
  induction coarser with
  | zero =>
      have found : onGrid? tie (.ofNat number) (power (1074 + 1)) = some number :=
        onGrid?_mul (power_pos _) nonzero (value_ofNat small)
      refine ⟨number, 0, ?_, Nat.mul_one number⟩
      -- The grid of the ones is one coarser than another, so the search looks at it first.
      change search tie (.ofNat number) (1074 + 1) = _
      rw [search, found]
      rfl
  | succ coarser finer =>
      rw [← Nat.add_assoc, search]
      split
      · next significand found =>
          have tens : 10 ∣ significand * power (coarser + 1) :=
            Nat.dvd_mul_left_of_dvd (Dvd.intro_left (power coarser) rfl) significand
          -- Another multiple of ten would be another magnitude.
          have same := Magnitude.eq_of_ofNat_eq small tens (ofNat_of_onGrid? nonzero found)
          refine ⟨significand, coarser + 1, ?_, same⟩
          congr 1
          rw [Int.ofNat_eq_natCast]
          omega
      · exact finer

end Shortest

end Decimal

namespace Numeral

theorem plain_magnitudeText_eq (magnitude : Magnitude) :
    plain.magnitudeText magnitude =
      (Decimal.shortest .up magnitude).positionalText [] := by
  unfold Decimal.Layout.magnitudeText
  exact if_pos rfl

/-- A whole number up to `2 ^ 53` is written with its own digits. -/
theorem plain_magnitudeText {number : Nat} (small : number ≤ 2 ^ 53) :
    plain.magnitudeText (.ofNat number) = Decimal.digits number := by
  rcases Nat.eq_zero_or_pos number with rfl | positive
  · rw [Magnitude.ofNat_zero]
    rfl
  · have large : Decimal.power Decimal.Shortest.places ≤
        Decimal.Shortest.value (.ofNat number) := by
      rw [Decimal.Shortest.value_ofNat small]
      exact Nat.le_mul_of_pos_left _ positive
    obtain ⟨coarser, start⟩ :=
      Nat.exists_eq_add_of_le (Decimal.Shortest.places_le_coarseGrid large)
    obtain ⟨significand, exponent, found, product⟩ :=
      Decimal.Shortest.search_whole .up small positive coarser
    have decimal : Decimal.shortest .up (.ofNat number) = ⟨significand, .ofNat exponent⟩ := by
      rw [Decimal.shortest, if_neg (Decimal.Shortest.place_ofNat_ne_zero small positive), start,
        found]
    have some : 0 < significand := Nat.pos_of_mul_pos_right (product ▸ positive)
    calc
      plain.magnitudeText (.ofNat number)
          = (Decimal.shortest .up (.ofNat number)).positionalText [] :=
            plain_magnitudeText_eq _
      _ = Decimal.digits significand ++ Decimal.zeros exponent := by
        rw [decimal]
        exact List.append_nil _
      _ = Decimal.digits number := by rw [← Decimal.digits_mul_power some, product]

/-- A small integer is written as its plain decimal numeral. -/
theorem plain_text_ofInt {number : Int} (small : Binary64.IsSmall number) :
    plain.text (.ofInt number) = (toString number).toList := by
  have finite : (Magnitude.ofNat number.natAbs).isFinite = true := Magnitude.isFinite_ofNat small
  rw [Binary64.ofInt, plain.text_signed _ finite, plain_magnitudeText small]
  cases number with
  | ofNat number =>
      have plain : toString (Int.ofNat number) = toString number := rfl
      rw [if_neg (by simp), plain, Nat.toString_eq_ofList_toDigits, String.toList_ofList]
      rfl
  | negSucc number =>
      rw [if_pos (by simp), Text.toList_negSucc, Nat.toString_eq_ofList_toDigits,
        String.toList_ofList]
      rfl

end Numeral

end PrefixArith
