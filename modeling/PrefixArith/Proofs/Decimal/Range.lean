import PrefixArith.Proofs.Binary64.Closeness
import PrefixArith.Proofs.Decimal.Fewest

/-!
# The range of shortest decimals

A grid whose members are closer to one another than half the distance to the next magnitude has a
member that rounds to the magnitude. So the search ends on one of the ten times coarser grids at the
latest, which bounds the digits of a shortest decimal, and its exponent from below.
-/

namespace PrefixArith

namespace Decimal

variable {magnitude : Magnitude}

namespace Shortest

/-- What lies above the value by less than half the distance to the next one rounds to it. -/
theorem roundsTo_above (nonzero : magnitude.place ≠ 0) {candidate : Nat}
    (above : value magnitude ≤ candidate)
    (below : candidate < value magnitude + Magnitude.spacing magnitude.place * halfUnit) :
    roundsTo magnitude candidate = true := by
  have middle : middle magnitude.place =
      value magnitude + Magnitude.spacing magnitude.place * halfUnit := by
    rw [middle, value, Magnitude.units, Magnitude.unitsAt_add_spacing]
    ring
  have exact : roundsTo magnitude (value magnitude) = true :=
    (roundsTo_iff nonzero _).mpr (value_roundsTo magnitude)
  by_cases even : magnitude.place % 2 = 0
  · simp only [roundsTo, if_pos even, Bool.and_eq_true, decide_eq_true_eq, middle] at exact ⊢
    exact ⟨exact.1.trans above, below.le⟩
  · simp only [roundsTo, if_neg even, Bool.and_eq_true, decide_eq_true_eq, middle] at exact ⊢
    exact ⟨exact.1.trans_le above, below⟩

/-- A shortest decimal lies on each grid that is narrow enough, or on a coarser one. -/
theorem le_exponent_of_narrow (tie : Tie) (nonzero : magnitude.place ≠ 0) {grid : Nat}
    (narrow : power grid < Magnitude.spacing magnitude.place * halfUnit) :
    (grid : Int) - places ≤ (shortest tie magnitude).exponent := by
  have positive : 0 < Magnitude.units magnitude := by
    have grows := Magnitude.unitsAt_strictMono (Nat.pos_of_ne_zero nonzero)
    rwa [Magnitude.unitsAt_zero] at grows
  have close : Magnitude.spacing magnitude.place ≤ magnitude.units :=
    Nat.le_of_dvd positive (Magnitude.spacing_dvd_unitsAt _)
  have within : power grid < 2 * value magnitude := by
    calc
      power grid < Magnitude.spacing magnitude.place * halfUnit := narrow
      _ ≤ 4 * magnitude.units * halfUnit := Nat.mul_le_mul_right _ (by omega)
      _ = 2 * value magnitude := by rw [value]; ring
  have rounds : roundsTo magnitude ((value magnitude / power grid + 1) * power grid) = true := by
    apply roundsTo_above nonzero
    · rw [Nat.add_mul, Nat.one_mul]
      exact (Nat.lt_div_mul_add (power_pos grid)).le
    · rw [Nat.add_mul, Nat.one_mul]
      exact Nat.add_lt_add_of_le_of_lt (Nat.div_mul_le_self _ _) narrow
  rw [shortest, if_neg nonzero]
  exact le_exponent_search tie nonzero (le_coarseGrid within) rounds

/-- Twice the value of a finite magnitude is below `10 ^ 309`. -/
theorem two_mul_value_lt (finite : magnitude.isFinite = true) :
    2 * value magnitude < power (309 + places) := by
  have less : magnitude.units < 2 ^ 1024 * Magnitude.unitsPerOne := by
    rw [← Magnitude.unitsAt_top]
    exact Magnitude.unitsAt_strictMono (of_decide_eq_true finite)
  have regroup (left unit half : Nat) : left * unit * (2 * half) = 2 * left * (unit * half) := by
    ring
  calc
    2 * value magnitude = magnitude.units * (2 * (2 * halfUnit)) := by rw [value]; ring
    _ < 2 ^ 1024 * Magnitude.unitsPerOne * (2 * (2 * halfUnit)) :=
      Nat.mul_lt_mul_of_pos_right less (Nat.mul_pos Nat.two_pos unit_pos)
    _ = 2 * 2 ^ 1024 * (Magnitude.unitsPerOne * (2 * halfUnit)) := regroup _ _ _
    _ ≤ power 309 * power places := by
      rw [unitsPerOne_mul_halfUnit]
      exact Nat.mul_le_mul_right _ (by decide +kernel)
    _ = power (309 + places) := (power_add ..).symm

end Shortest

open Shortest

/-- The grid of a shortest decimal, of which it is a member that rounds to the magnitude. -/
theorem exists_shift (tie : Tie) (nonzero : magnitude.place ≠ 0) :
    ∃ shift : Nat, (shortest tie magnitude).exponent = (shift : Int) - places ∧
      roundsTo magnitude ((shortest tie magnitude).significand * power shift) = true := by
  obtain ⟨shift, exponent, rounds⟩ := search_sound tie nonzero (coarseGrid (value magnitude))
  rw [shortest, if_neg nonzero]
  exact ⟨shift, exponent, (roundsTo_iff nonzero _).mpr rounds⟩

theorem le_exponent (tie : Tie) (nonzero : magnitude.place ≠ 0) :
    -324 ≤ (shortest tie magnitude).exponent := by
  have narrow : power 751 < Magnitude.spacing magnitude.place * halfUnit := by
    calc
      power 751 < halfUnit := by decide +kernel
      _ ≤ Magnitude.spacing magnitude.place * halfUnit :=
        Nat.le_mul_of_pos_left _ (Nat.two_pow_pos _)
  exact le_exponent_of_narrow tie nonzero narrow

theorem exponent_le (tie : Tie) (nonzero : magnitude.place ≠ 0)
    (finite : magnitude.isFinite = true) : (shortest tie magnitude).exponent ≤ 308 := by
  obtain ⟨shift, exponent, rounds⟩ := exists_shift tie nonzero
  have positive := pos_of_isNearest nonzero (shortest_isNearest tie magnitude)
  have less : power shift < power (309 + places) := by
    calc
      power shift ≤ (shortest tie magnitude).significand * power shift :=
        Nat.le_mul_of_pos_left _ positive
      _ < 2 * value magnitude := lt_two_mul_value nonzero rounds
      _ < power (309 + places) := two_mul_value_lt finite
  have shorter : shift < 309 + places := by
    by_contra longer
    exact absurd less (Nat.not_lt.mpr (power_le_power (Nat.not_lt.mp longer)))
  omega

theorem significand_lt (tie : Tie) (nonzero : magnitude.place ≠ 0) :
    (shortest tie magnitude).significand < 40 * 2 ^ 53 := by
  obtain ⟨shift, exponent, rounds⟩ := exists_shift tie nonzero
  have wide : Magnitude.spacing magnitude.place * halfUnit ≤ power (shift + 1) := by
    by_contra narrow
    have coarser := le_exponent_of_narrow tie nonzero (Nat.not_le.mp narrow)
    omega
  apply Nat.lt_of_mul_lt_mul_right (a := power shift)
  calc
    (shortest tie magnitude).significand * power shift < 2 * value magnitude :=
      lt_two_mul_value nonzero rounds
    _ = 4 * magnitude.units * halfUnit := by rw [value]; ring
    _ ≤ 4 * (2 ^ 53 * Magnitude.spacing magnitude.place) * halfUnit :=
      Nat.mul_le_mul_right _ (Nat.mul_le_mul_left 4 (Magnitude.unitsAt_lt_mul_spacing _).le)
    _ = 4 * 2 ^ 53 * (Magnitude.spacing magnitude.place * halfUnit) := by ring
    _ ≤ 4 * 2 ^ 53 * power (shift + 1) := Nat.mul_le_mul_left _ wide
    _ = 4 * 2 ^ 53 * (power shift * 10) := by rw [power_add]; rfl
    _ = 40 * 2 ^ 53 * power shift := by ring

end Decimal

end PrefixArith
