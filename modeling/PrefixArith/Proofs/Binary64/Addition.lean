import PrefixArith.Binary64.Basic
import PrefixArith.Proofs.Binary64.Neighbours

/-!
# Zeros in sums

Zero is neutral on the left of a sum for every double but negative zero, which it turns into zero. A
sum is negative zero only if both of its sides are, because a sum that is not zero is at least one
unit and does not round to zero.
-/

namespace PrefixArith

namespace Magnitude

/-- A magnitude is the nearest one to its own number of units. -/
theorem nearest_units (magnitude : Magnitude) : nearest magnitude.units 1 = magnitude := by
  rw [nearest, units, nearestPlace_unitsAt, ofPlace_place]

theorem units_zero : zero.units = 0 := unitsAt_zero

theorem eq_zero_of_units_eq_zero {magnitude : Magnitude} (none : magnitude.units = 0) :
    magnitude = zero := by
  rw [← nearest_units magnitude, none, ← units_zero, nearest_units]

/-- A number of units other than zero is not rounded to zero. -/
theorem nearest_ne_zero {count : Nat} (some : count ≠ 0) : nearest count 1 ≠ zero := by
  have one : unitsAt 1 * 1 ≤ count := Nat.one_le_iff_ne_zero.mpr some
  have reached : 1 ≤ nearestPlace count 1 := le_nearestPlace Nat.one_pos one
  intro isZero
  have place : min (nearestPlace count 1) top = 0 := congrArg Magnitude.place isZero
  have last : 1 ≤ top := by decide
  omega

end Magnitude

namespace Binary64

/-- The zero with a sign. -/
def negativeZero : Binary64 := .signed true .zero

/-! ## Numbers of units -/

theorem signedUnits_eq_zero_iff {negative : Bool} {magnitude : Magnitude} :
    signedUnits negative magnitude = 0 ↔ magnitude = .zero := by
  constructor
  · intro none
    apply Magnitude.eq_zero_of_units_eq_zero
    unfold signedUnits at none
    split at none <;> omega
  · rintro rfl
    cases negative <;> rfl

/-- A finite double is the one with its own number of units, and zero the one with the sign. -/
theorem ofUnits_signedUnits {negative zeroNegative : Bool} {magnitude : Magnitude}
    (sign : magnitude = .zero → zeroNegative = negative) :
    ofUnits zeroNegative (signedUnits negative magnitude) = .signed negative magnitude := by
  by_cases isZero : magnitude = .zero
  · rw [ofUnits, if_pos (signedUnits_eq_zero_iff.mpr isZero), sign isZero, isZero]
  · have some : signedUnits negative magnitude ≠ 0 := mt signedUnits_eq_zero_iff.mp isZero
    have size : (signedUnits negative magnitude).natAbs = magnitude.units := by
      unfold signedUnits
      split <;> omega
    have below : decide (signedUnits negative magnitude < 0) = negative := by
      unfold signedUnits at some ⊢
      cases negative with
      | false => simp
      | true => simp at some ⊢; omega
    rw [ofUnits, if_neg some, size, below, Magnitude.nearest_units]

theorem ofUnits_eq_negativeZero {zeroNegative : Bool} {count : Int}
    (isZero : ofUnits zeroNegative count = negativeZero) : zeroNegative = true ∧ count = 0 := by
  unfold ofUnits negativeZero at isZero
  split at isZero
  · next none => exact ⟨(Binary64.signed.inj isZero).1, none⟩
  · next some =>
      have absurdly := (Binary64.signed.inj isZero).2
      exact absurd absurdly (Magnitude.nearest_ne_zero (Int.natAbs_ne_zero.mpr some))

/-! ## Sums -/

/-- An infinity is no zero. -/
theorem ne_negativeZero {negative : Bool} {magnitude : Magnitude}
    (infinite : ¬ magnitude.isFinite = true) : signed negative magnitude ≠ negativeZero := by
  intro isZero
  rw [(Binary64.signed.inj isZero).2] at infinite
  exact infinite rfl

/-- Zero on the left of a sum changes nothing but a negative zero. -/
theorem zero_add {right : Binary64} (other : right ≠ negativeZero) : zero.add right = right := by
  cases right with
  | nan => rfl
  | signed negative magnitude =>
      by_cases finite : magnitude.isFinite = true
      · have both : (Magnitude.zero.isFinite && magnitude.isFinite) = true := by
          rw [finite]
          rfl
        have none : signedUnits false .zero = 0 := rfl
        rw [zero, add, if_pos both, none, Int.zero_add, Bool.false_and]
        apply ofUnits_signedUnits
        rintro rfl
        cases negative with
        | false => rfl
        | true => exact absurd rfl other
      · simp [zero, add, finite, show Magnitude.zero.isFinite = true from rfl]

/-- A sum is negative zero only if its left side is. -/
theorem add_ne_negativeZero {left : Binary64} (other : left ≠ negativeZero) (right : Binary64) :
    left.add right ≠ negativeZero := by
  intro isZero
  unfold add at isZero
  split at isZero
  · next leftNegative left rightNegative right =>
      split at isZero
      · obtain ⟨signs, sum⟩ := ofUnits_eq_negativeZero isZero
        rw [Bool.and_eq_true] at signs
        obtain ⟨rfl, rfl⟩ := signs
        have none : left.units = 0 := by
          simp only [signedUnits, if_pos] at sum
          omega
        exact other (by rw [Magnitude.eq_zero_of_units_eq_zero none]; rfl)
      · -- A sum of doubles that are not both finite is infinite or NaN.
        next infinite =>
          rw [Bool.and_eq_true] at infinite
          split at isZero
          · next finite => exact ne_negativeZero (fun left => infinite ⟨left, finite⟩) isZero
          · next rightInfinite =>
              split at isZero
              · exact ne_negativeZero rightInfinite isZero
              · cases isZero
  · cases isZero

end Binary64

end PrefixArith
