import PrefixArith.Decimal.Numeral
import PrefixArith.Decimal.Shortest
import PrefixArith.Proofs.Binary64.Rounding

/-!
# Magnitudes of decimals

The magnitude that a decimal denotes is the quotient it stands for, rounded once. The bounds past
which no power of ten is computed change nothing: what they cut off is infinity or zero already. On
the grids of `10 ^ -1075` and its multiples, on which shortest decimals are sought, a decimal with
the right to a magnitude therefore denotes that magnitude.
-/

namespace PrefixArith

namespace Decimal

theorem power_pos (exponent : Nat) : 0 < power exponent :=
  Nat.pow_pos (Nat.succ_pos 9)

theorem power_zero : power 0 = 1 :=
  rfl

theorem power_add (left right : Nat) : power (left + right) = power left * power right :=
  Nat.pow_add 10 left right

theorem power_le_power {left right : Nat} (less : left ≤ right) : power left ≤ power right :=
  Nat.pow_le_pow_right (Nat.succ_pos 9) less

theorem unitsAt_top_le : Magnitude.unitsAt Magnitude.top ≤ power 310 * Magnitude.unitsPerOne := by
  decide +kernel

/-- Whole decimals are rounded exactly, whatever their size. -/
theorem magnitude_ofNat (significand exponent : Nat) :
    magnitude significand (.ofNat exponent) =
      .nearest (significand * power exponent * Magnitude.unitsPerOne) 1 := by
  rw [magnitude]
  split
  case isTrue none =>
      subst none
      rw [Nat.zero_mul, Nat.zero_mul]
      exact (Magnitude.nearest_eq_zero Nat.one_pos Nat.one_pos).symm
  case isFalse some =>
      split
      case isTrue large =>
          symm
          apply Magnitude.nearest_eq_infinity Nat.one_pos
          rw [Nat.mul_one]
          apply Nat.le_trans unitsAt_top_le
          apply Nat.mul_le_mul_right
          calc
            power 310 ≤ power exponent := power_le_power large
            _ ≤ significand * power exponent := Nat.le_mul_of_pos_left _ (Nat.pos_of_ne_zero some)
      case isFalse => rfl

/-- Twice a scaled number is below the power of two after its leading bit. -/
theorem two_mul_scaled_lt (number bits : Nat) :
    2 * (number * 2 ^ bits) < 2 ^ (number.log2 + bits + 2) := by
  calc
    2 * (number * 2 ^ bits) = number * 2 ^ (bits + 1) := by ring
    _ < 2 ^ (number.log2 + 1) * 2 ^ (bits + 1) :=
      Nat.mul_lt_mul_of_pos_right Nat.lt_log2_self (Nat.two_pow_pos _)
    _ = 2 ^ (number.log2 + bits + 2) := by ring

/-- Decimals with a fraction are rounded exactly, whatever their size. -/
theorem magnitude_negSucc (significand exponent : Nat) :
    magnitude significand (.negSucc exponent) =
      .nearest (significand * Magnitude.unitsPerOne) (power (exponent + 1)) := by
  rw [magnitude]
  split
  case isTrue small =>
      symm
      apply Magnitude.nearest_eq_zero (power_pos _)
      rw [Magnitude.unitsPerOne_eq]
      calc
        2 * (significand * 2 ^ 1074) < 2 ^ (significand.log2 + 1074 + 2) :=
          two_mul_scaled_lt significand 1074
        _ ≤ 2 ^ (3 * (exponent + 1)) := Nat.pow_le_pow_right Nat.two_pos (by omega)
        _ = 8 ^ (exponent + 1) := Nat.pow_mul 2 3 _
        _ ≤ power (exponent + 1) := Nat.pow_le_pow_left (by decide) _
  case isFalse => rfl

namespace Shortest

theorem halfUnit_pos : 0 < halfUnit := by
  decide +kernel

/-- Half units of the doubles are whole numbers of `10 ^ -1075`. -/
theorem unitsPerOne_mul_halfUnit : Magnitude.unitsPerOne * (2 * halfUnit) = power places := by
  decide +kernel

/-- On the grids of shortest decimals a decimal denotes the quotient of its place by a unit. -/
theorem magnitude_shift (significand shift : Nat) :
    magnitude significand ((shift : Int) - places) =
      .nearest (significand * power shift) (2 * halfUnit) := by
  have unit : 0 < 2 * halfUnit := Nat.mul_pos Nat.two_pos halfUnit_pos
  rcases Nat.lt_or_ge shift places with fraction | whole
  · obtain ⟨exponent, total⟩ := Nat.exists_eq_add_of_lt fraction
    have exact : (shift : Int) - places = .negSucc exponent := by
      rw [total, Int.negSucc_eq]
      omega
    rw [exact, magnitude_negSucc]
    apply Magnitude.nearest_eq_of_ratio (power_pos _) unit
    rw [Nat.mul_assoc, unitsPerOne_mul_halfUnit, total, Nat.add_assoc, power_add, Nat.mul_assoc]
  · obtain ⟨exponent, rfl⟩ := Nat.exists_eq_add_of_le whole
    have exact : ((places + exponent : Nat) : Int) - places = .ofNat exponent := by
      rw [Int.ofNat_eq_natCast]
      omega
    rw [exact, magnitude_ofNat]
    apply Magnitude.nearest_eq_of_ratio Nat.one_pos unit
    rw [Nat.mul_assoc, unitsPerOne_mul_halfUnit, power_add, Nat.mul_one, Nat.mul_assoc,
      Nat.mul_comm (power exponent)]

end Shortest

end Decimal

end PrefixArith
