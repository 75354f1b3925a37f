import PrefixArith.Binary64.Basic

/-!
# The numeric order of doubles

One double is at most another if it is less or equal as a number. NaN stands in no order with
anything; all other doubles, both zeros and the infinities included, are ordered in a row in which
the two zeros take the same place.
-/

namespace PrefixArith

namespace Binary64

/-- The numeric comparison that admits equality, false of NaN. -/
def AtMost (left right : Binary64) : Prop :=
  left.less right = true ∨ left.equal right = true

variable {left middle right : Binary64}

theorem less_nan : left.less .nan = false := by
  cases left <;> rfl

theorem nan_less : Binary64.nan.less right = false := rfl

/-- A double is NaN or has a place in the row. -/
theorem exists_order (number : left ≠ .nan) :
    ∃ negative magnitude, left = .signed negative magnitude := by
  cases left with
  | nan => exact absurd rfl number
  | signed negative magnitude => exact ⟨negative, magnitude, rfl⟩

theorem atMost_signed {leftNegative rightNegative : Bool} {left right : Magnitude} :
    AtMost (.signed leftNegative left) (.signed rightNegative right) ↔
      order leftNegative left ≤ order rightNegative right := by
  simp only [AtMost, less, equal, decide_eq_true_eq, beq_iff_eq]
  omega

theorem AtMost.trans (first : left.AtMost middle) (second : middle.AtMost right) :
    left.AtMost right := by
  cases left with
  | nan => simp [AtMost, less, equal] at first
  | signed leftNegative left =>
      cases middle with
      | nan => simp [AtMost, less, equal] at first
      | signed middleNegative middle =>
          cases right with
          | nan => simp [AtMost, less, equal] at second
          | signed rightNegative right =>
              rw [atMost_signed] at first second ⊢
              exact Int.le_trans first second

theorem AtMost.refl (number : left ≠ .nan) : left.AtMost left := by
  obtain ⟨negative, magnitude, rfl⟩ := exists_order number
  exact atMost_signed.mpr (Int.le_refl _)

/-- Of two doubles other than NaN one is less than the other unless this is at most the first. -/
theorem less_iff_not_atMost (leftNumber : left ≠ .nan) (rightNumber : right ≠ .nan) :
    left.less right = true ↔ ¬ right.AtMost left := by
  obtain ⟨leftNegative, left, rfl⟩ := exists_order leftNumber
  obtain ⟨rightNegative, right, rfl⟩ := exists_order rightNumber
  rw [atMost_signed, less, decide_eq_true_eq, Int.not_le]

end Binary64

end PrefixArith
