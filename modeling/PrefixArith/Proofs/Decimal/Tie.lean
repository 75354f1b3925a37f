import PrefixArith.Proofs.Decimal.Fewest

/-!
# Ties between shortest decimals

The ways to break a tie lead to the same grid, and to different decimals only half way between two
neighbours on it. There both neighbours are shortest decimals, of which one way takes the upper and
the other the even one.
-/

namespace PrefixArith

namespace Decimal

/-! ## Where the ways to break a tie differ -/

namespace Shortest

variable {magnitude : Magnitude}

/-- Both ways to break a tie take the same neighbour, unless the lower one of two is even. -/
theorem nearer_ties (step exact : Nat) :
    nearer .up step exact = nearer .even step exact ∨
      nearer .even step exact % 2 = 0 ∧
        nearer .up step exact = nearer .even step exact + 1 ∧
        2 * exact = (2 * nearer .even step exact + 1) * step := by
  unfold nearer
  dsimp only
  cases side : compare (2 * (exact % step)) step with
  | lt => exact .inl rfl
  | gt => exact .inl rfl
  | eq =>
      have half := Nat.compare_eq_eq.mp side
      rcases Nat.mod_two_eq_zero_or_one (exact / step) with even | odd
      · right
        refine ⟨by simp [even], by simp [even], ?_⟩
        calc
          2 * exact = 2 * (step * (exact / step) + exact % step) := by rw [Nat.div_add_mod]
          _ = 2 * (step * (exact / step)) + step := by rw [Nat.mul_add, half]
          _ = (2 * (exact / step + exact / step % 2) + 1) * step := by
            rw [even]
            ring
      · exact .inl (by simp [odd])

/-- On a grid, both ways to break a tie find the same or two neighbours around the value. -/
theorem onGrid?_ties (magnitude : Magnitude) (step : Nat) :
    onGrid? .up magnitude step = onGrid? .even magnitude step ∨
      ∃ below, below % 2 = 0 ∧ onGrid? .even magnitude step = some below ∧
        onGrid? .up magnitude step = some (below + 1) ∧
        2 * value magnitude = (2 * below + 1) * step := by
  unfold onGrid?
  dsimp only
  split
  · rcases nearer_ties step (value magnitude) with same | ⟨even, next, middle⟩
    · exact .inl (congrArg some same)
    · exact .inr ⟨_, even, rfl, congrArg some next, middle⟩
  · exact .inl rfl
  · exact .inl rfl
  · exact .inl rfl

/-- Both ways to break a tie end on one grid, on the same member or on two around the value. -/
theorem search_ties (magnitude : Magnitude) (coarsest : Nat) :
    search .up magnitude coarsest = search .even magnitude coarsest ∨
      ∃ below shift : Nat, below % 2 = 0 ∧
        search .even magnitude coarsest = ⟨below, (shift : Int) - places⟩ ∧
        search .up magnitude coarsest = ⟨below + 1, (shift : Int) - places⟩ ∧
        2 * value magnitude = (2 * below + 1) * power shift := by
  induction coarsest with
  | zero => exact .inl rfl
  | succ grid finer =>
      rw [search, search]
      rcases onGrid?_ties magnitude (power (grid + 1)) with same | ⟨below, even, lower, upper, middle⟩
      · rw [same]
        split
        · exact .inl rfl
        · exact finer
      · rw [lower, upper]
        exact .inr ⟨below, grid + 1, even, rfl, rfl, middle⟩

/-- The value of a magnitude, which the search counts in `10 ^ -1075`. -/
theorem value_eq (magnitude : Magnitude) :
    magnitude.value = value magnitude / (power places : ℚ) := by
  have counted : value magnitude = magnitude.units * (2 * halfUnit) := by
    rw [value, Nat.mul_comm 2, Nat.mul_assoc]
  have half : ((2 * halfUnit : Nat) : ℚ) ≠ 0 := Nat.cast_ne_zero.mpr unit_pos.ne'
  rw [counted, ← unitsPerOne_mul_halfUnit, Nat.cast_mul magnitude.units,
    Nat.cast_mul Magnitude.unitsPerOne, mul_div_mul_right _ _ half]
  rfl

/-- A multiple of a member of a grid, as a number. -/
theorem two_mul_value {multiplier shift : Nat}
    (exact : 2 * value magnitude = multiplier * power shift) :
    2 * magnitude.value = multiplier * 10 ^ ((shift : Int) - places) := by
  have counted : (2 * value magnitude : ℚ) = multiplier * power shift := by exact_mod_cast exact
  rw [value_eq, ← mul_div_assoc, counted, mul_div_assoc, cast_power, cast_power, zpow_sub₀ (by norm_num),
    zpow_natCast, zpow_natCast]

end Shortest

/--
The two ways to break a tie lead to the same shortest decimal, unless the value lies half way between
two neighbours of which the lower ends in an even digit; then each takes another one.
-/
theorem shortest_ties (magnitude : Magnitude) :
    shortest .up magnitude = shortest .even magnitude ∨
      ∃ (below : Nat) (exponent : Int), below % 2 = 0 ∧
        shortest .even magnitude = ⟨below, exponent⟩ ∧
        shortest .up magnitude = ⟨below + 1, exponent⟩ ∧
        2 * magnitude.value = below * 10 ^ exponent + (below + 1 : Nat) * 10 ^ exponent := by
  unfold shortest
  split
  · exact .inl rfl
  · rcases Shortest.search_ties magnitude _ with same | ⟨below, shift, even, lower, upper, middle⟩
    · exact .inl same
    · refine .inr ⟨below, _, even, lower, upper, ?_⟩
      rw [Shortest.two_mul_value middle]
      push_cast
      ring

/-! ## Half way between two neighbours -/

/-- Of a number and the next one, the one that a way to break a tie takes. -/
def Tie.settle (below : Nat) : Tie → Nat
  | up => below + 1
  | even => below + below % 2

namespace Shortest

variable {magnitude : Magnitude}

/-- A value that is half way between two members of a grid is nearer to neither. -/
theorem nearer_of_middle (tie : Tie) {step exact below : Nat} (positive : 0 < step)
    (middle : 2 * exact = (2 * below + 1) * step) :
    exact / step = below ∧ nearer tie step exact = tie.settle below := by
  have split : 2 * exact = 2 * (below * step) + step := by
    rw [middle]
    ring
  obtain ⟨half, halves⟩ : ∃ half, step = 2 * half := ⟨exact - below * step, by omega⟩
  have whole : exact = half + step * below := by
    rw [Nat.mul_comm step]
    omega
  have quotient : exact / step = below := by
    rw [whole, Nat.add_mul_div_left _ _ positive, Nat.div_eq_of_lt (by omega), Nat.zero_add]
  have remainder : exact % step = half := by
    rw [whole, Nat.add_mul_mod_self_left, Nat.mod_eq_of_lt (by omega)]
  have side : compare (2 * (exact % step)) step = .eq := by
    rw [remainder, halves, Nat.compare_eq_eq]
  refine ⟨quotient, ?_⟩
  simp only [nearer, side, quotient]
  cases tie <;> rfl

/-- On a grid with two members around the value that round to the magnitude the tie decides. -/
theorem onGrid?_of_middle (tie : Tie) {step below : Nat} (positive : 0 < step)
    (middle : 2 * value magnitude = (2 * below + 1) * step)
    (lower : roundsTo magnitude (below * step) = true)
    (upper : roundsTo magnitude ((below + 1) * step) = true) :
    onGrid? tie magnitude step = some (tie.settle below) := by
  obtain ⟨quotient, taken⟩ := nearer_of_middle tie positive middle
  simp only [onGrid?, quotient, lower, upper, taken]

/-- The search ends with what is found on the grid of its exponent, but for the finest grid. -/
theorem onGrid?_search (tie : Tie) {coarsest grid : Nat}
    (ends : (search tie magnitude coarsest).exponent = (grid + 1 : Int) - places) :
    onGrid? tie magnitude (power (grid + 1)) =
      some (search tie magnitude coarsest).significand := by
  induction coarsest with
  | zero =>
      rw [search] at ends
      dsimp only at ends
      omega
  | succ coarser ih =>
      unfold search at ends ⊢
      split at ends
      · next significand found =>
          obtain rfl : coarser = grid := by
            dsimp only at ends
            omega
          rw [found]
      · exact ih ends

/-- A value is a multiple of a member of a grid if its number is. -/
theorem two_mul_value_eq {multiplier shift : Nat}
    (exact : 2 * magnitude.value = multiplier * 10 ^ ((shift : Int) - places)) :
    2 * value magnitude = multiplier * power shift := by
  have scaled : ((power places : Nat) : ℚ) ≠ 0 := Nat.cast_ne_zero.mpr (power_pos places).ne'
  rw [value_eq, zpow_sub₀ (by norm_num), zpow_natCast, zpow_natCast, ← cast_power, ← cast_power,
    ← mul_div_assoc, ← mul_div_assoc, div_left_inj' scaled] at exact
  exact_mod_cast exact

end Shortest

/--
When a value lies half way between two neighbours that both round to its magnitude, and no decimal on
a coarser grid does, each way to break a tie takes the neighbour of its own.
-/
theorem shortest_of_middle {magnitude : Magnitude} (tie : Tie) (nonzero : magnitude.place ≠ 0)
    (finite : magnitude.isFinite = true) {below : Nat} {exponent : Int}
    (middle : 2 * magnitude.value = below * 10 ^ exponent + (below + 1 : Nat) * 10 ^ exponent)
    (lower : magnitude.IsNearest (below * 10 ^ exponent))
    (upper : magnitude.IsNearest ((below + 1 : Nat) * 10 ^ exponent))
    (coarsest : (shortest tie magnitude).exponent ≤ exponent) :
    shortest tie magnitude = ⟨tie.settle below, exponent⟩ := by
  have reached := le_exponent_shortest tie nonzero finite (Nat.succ_pos below) upper
  obtain rfl := Int.le_antisymm reached coarsest
  have fine : -(Shortest.places : Int) ≤ (shortest tie magnitude).exponent := by
    rw [shortest, if_neg nonzero]
    exact Shortest.neg_places_le_exponent_search tie nonzero _
  obtain ⟨shift, shifted⟩ := Int.eq_ofNat_of_zero_le (Int.sub_nonneg_of_le fine)
  have ends : (shortest tie magnitude).exponent = (shift : Int) - Shortest.places := by omega
  rw [ends] at middle lower upper
  have counted : 2 * Shortest.value magnitude = (2 * below + 1) * power shift := by
    apply Shortest.two_mul_value_eq
    rw [middle]
    push_cast
    ring
  cases shift with
  | zero =>
      -- Half of an odd number is on no grid.
      rw [power_zero, Nat.mul_one] at counted
      omega
  | succ grid =>
      have found : Shortest.onGrid? tie magnitude (power (grid + 1)) =
          some (shortest tie magnitude).significand := by
        rw [shortest, if_neg nonzero] at ends ⊢
        exact Shortest.onGrid?_search tie (by exact_mod_cast ends)
      have rounds := Shortest.onGrid?_of_middle tie (power_pos _) counted
        (Shortest.roundsTo_of_isNearest nonzero finite lower)
        (Shortest.roundsTo_of_isNearest nonzero finite upper)
      rw [found] at rounds
      rw [← Option.some.inj rounds]

end Decimal

end PrefixArith
