import PrefixArith.Proofs.Decimal.Magnitude

/-!
# Shortest decimals denote their magnitude

Every candidate that the search for a shortest decimal accepts lies between the middles to both
neighbours of the magnitude, and so does the value it falls back to. Whatever grid the search ends
on, and however a tie is broken, the decimal it finds denotes the magnitude it started from.
-/

namespace PrefixArith

namespace Decimal

namespace Shortest

variable {tie : Tie} {magnitude : Magnitude}

theorem unit_pos : 0 < 2 * halfUnit :=
  Nat.mul_pos Nat.two_pos halfUnit_pos

theorem twiceMiddle_mul (place : Nat) :
    Magnitude.twiceMiddle place * (2 * halfUnit) = 2 * middle place := by
  rw [middle, Magnitude.twiceMiddle, Nat.mul_left_comm]

/-- The test of a candidate is that of rounding: but for zero a magnitude has both middles. -/
theorem roundsTo_iff (nonzero : magnitude.place ≠ 0) (candidate : Nat) :
    roundsTo magnitude candidate = true ↔
      Magnitude.RoundsTo magnitude.place candidate (2 * halfUnit) := by
  obtain ⟨before, is⟩ := Nat.exists_eq_succ_of_ne_zero nonzero
  have sides : Magnitude.RoundsTo magnitude.place candidate (2 * halfUnit) ↔
      (2 * middle before < 2 * candidate ∨
          2 * middle before = 2 * candidate ∧ magnitude.place % 2 = 0) ∧
        (2 * candidate < 2 * middle magnitude.place ∨
          2 * candidate = 2 * middle magnitude.place ∧ magnitude.place % 2 = 0) := by
    rw [← twiceMiddle_mul, ← twiceMiddle_mul]
    constructor
    · intro rounds
      exact ⟨rounds.above before is, rounds.below⟩
    · rintro ⟨above, below⟩
      constructor
      · intro other next
        obtain rfl : before = other := Nat.succ.inj (is.symm.trans next)
        exact above
      · exact below
  have previous : magnitude.place - 1 = before := by
    rw [is, Nat.succ_sub_one]
  rw [sides, roundsTo, previous]
  generalize middle before = low
  generalize middle magnitude.place = high
  split <;> simp only [Bool.and_eq_true, decide_eq_true_eq] <;> omega

/-- The value of a magnitude rounds to it. -/
theorem value_roundsTo (magnitude : Magnitude) :
    Magnitude.RoundsTo magnitude.place (value magnitude) (2 * halfUnit) := by
  have scaled : value magnitude = Magnitude.unitsAt magnitude.place * (2 * halfUnit) := by
    rw [value, Magnitude.units, Nat.mul_comm 2, Nat.mul_assoc]
  rw [scaled]
  exact Magnitude.unitsAt_roundsTo magnitude.place unit_pos

/-- A tie between two members of a grid is settled for one of them. -/
theorem nearer_eq (tie : Tie) (step exact : Nat) :
    nearer tie step exact = exact / step ∨ nearer tie step exact = exact / step + 1 := by
  unfold nearer
  grind

/-- What is found on a grid rounds to the magnitude. -/
theorem onGrid?_sound {step multiplier : Nat}
    (found : onGrid? tie magnitude step = some multiplier) :
    roundsTo magnitude (multiplier * step) = true := by
  unfold onGrid? at found
  dsimp only at found
  split at found
  · next below above =>
      obtain rfl := Option.some.inj found
      rcases nearer_eq tie step (value magnitude) with is | is
      · rw [is, below]
      · rw [is, above]
  · next below _ =>
      obtain rfl := Option.some.inj found
      exact below
  · next _ above =>
      obtain rfl := Option.some.inj found
      exact above
  · cases found

/-- The search ends on a grid, and on a member of it that rounds to the magnitude. -/
theorem search_sound (tie : Tie) (nonzero : magnitude.place ≠ 0) (coarsest : Nat) :
    ∃ shift : Nat, (search tie magnitude coarsest).exponent = (shift : Int) - places ∧
      Magnitude.RoundsTo magnitude.place
        ((search tie magnitude coarsest).significand * power shift) (2 * halfUnit) := by
  induction coarsest with
  | zero =>
      refine ⟨0, (Int.zero_sub _).symm, ?_⟩
      rw [search, power_zero, Nat.mul_one]
      exact value_roundsTo magnitude
  | succ grid finer =>
      unfold search
      split
      · next significand found =>
          exact ⟨grid + 1, rfl, (roundsTo_iff nonzero _).mp (onGrid?_sound found)⟩
      · exact finer

end Shortest

/-- The shortest decimal of a magnitude denotes it. -/
theorem magnitude_shortest (tie : Tie) (magnitude : Magnitude) :
    Decimal.magnitude (shortest tie magnitude).significand (shortest tie magnitude).exponent =
      magnitude := by
  unfold shortest
  split
  case isTrue zero =>
      obtain ⟨place, bounded⟩ := magnitude
      obtain rfl : place = 0 := zero
      rfl
  case isFalse nonzero =>
      obtain ⟨shift, exponent, rounds⟩ := Shortest.search_sound tie nonzero _
      rw [exponent, Shortest.magnitude_shift]
      exact Magnitude.nearest_eq_of_roundsTo Shortest.unit_pos rounds

end Decimal

end PrefixArith
