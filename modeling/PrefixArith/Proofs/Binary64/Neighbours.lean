import PrefixArith.Proofs.Binary64.Nearest

/-!
# Neighbours in the row

The distance from a place to the next one is a power of two that divides the value at the place and
grows along the row. So a whole number that misses every place has neighbours that are at least two
apart: what less than half their distance adds to one of them is lost when it is rounded.
-/

namespace PrefixArith

namespace Magnitude

/-- The number of units from a place to the next one. -/
def spacing (place : Nat) : Nat :=
  2 ^ (place / placesPerExponent - 1)

theorem unitsAt_zero : unitsAt 0 = 0 :=
  unitsAt_of_lt placesPerExponent_pos

theorem unitsAt_add_spacing (place : Nat) : unitsAt (place + 1) = unitsAt place + spacing place :=
  unitsAt_succ place

theorem spacing_dvd_spacing {left right : Nat} (ordered : left ≤ right) :
    spacing left ∣ spacing right :=
  Nat.pow_dvd_pow 2 (Nat.sub_le_sub_right (Nat.div_le_div_right ordered) 1)

theorem spacing_mono {left right : Nat} (ordered : left ≤ right) : spacing left ≤ spacing right :=
  Nat.le_of_dvd (Nat.two_pow_pos _) (spacing_dvd_spacing ordered)

/-- Of two distances one is a power of two times the other at most, or the next such power at least. -/
theorem spacing_le_or_le (left right shift : Nat) :
    spacing left ≤ spacing right * 2 ^ shift ∨ spacing right * 2 ^ (shift + 1) ≤ spacing left := by
  rw [spacing, spacing, ← Nat.pow_add, ← Nat.pow_add]
  rcases Nat.lt_or_ge (right / placesPerExponent - 1 + shift) (left / placesPerExponent - 1) with
    above | below
  · exact .inr (Nat.pow_le_pow_right Nat.two_pos above)
  · exact .inl (Nat.pow_le_pow_right Nat.two_pos below)

/-- A place with an exponent is one with a leading bit. -/
theorem exists_normal {place : Nat} (normal : placesPerExponent ≤ place) :
    ∃ exponent fraction, fraction < placesPerExponent ∧
      place = (exponent + 1) * placesPerExponent + fraction := by
  have positive := Nat.div_pos normal placesPerExponent_pos
  refine ⟨place / placesPerExponent - 1, _, Nat.mod_lt place placesPerExponent_pos, ?_⟩
  rw [Nat.sub_add_cancel positive, Nat.div_add_mod']

theorem spacing_normal (exponent : Nat) {fraction : Nat} (small : fraction < placesPerExponent) :
    spacing ((exponent + 1) * placesPerExponent + fraction) = 2 ^ exponent := by
  rw [spacing, exponent_eq (exponent + 1) small, Nat.add_sub_cancel]

theorem spacing_subnormal {place : Nat} (small : place < placesPerExponent) :
    spacing place = 1 := by
  rw [spacing, Nat.div_eq_of_lt small]
  rfl

theorem spacing_dvd_unitsAt (place : Nat) : spacing place ∣ unitsAt place := by
  rcases Nat.lt_or_ge place placesPerExponent with small | normal
  · rw [spacing_subnormal small]
    exact Nat.one_dvd _
  · obtain ⟨exponent, fraction, small, rfl⟩ := exists_normal normal
    rw [spacing_normal exponent small, unitsAt_normal exponent small]
    exact Nat.dvd_mul_left _ _

/-- The distance at a place divides the values at all places that follow. -/
theorem spacing_dvd_unitsAt_of_le {left right : Nat} (ordered : left ≤ right) :
    spacing left ∣ unitsAt right :=
  Nat.dvd_trans (spacing_dvd_spacing ordered) (spacing_dvd_unitsAt right)

/-! ## Multiples by powers of two -/

/-- A power of two only raises the exponent. -/
theorem unitsAt_shift {place : Nat} (normal : placesPerExponent ≤ place) (shift : Nat) :
    unitsAt (place + shift * placesPerExponent) = unitsAt place * 2 ^ shift ∧
      spacing (place + shift * placesPerExponent) = spacing place * 2 ^ shift := by
  obtain ⟨exponent, fraction, small, rfl⟩ := exists_normal normal
  have raised : (exponent + 1) * placesPerExponent + fraction + shift * placesPerExponent =
      (exponent + shift + 1) * placesPerExponent + fraction := by ring
  rw [raised, unitsAt_normal _ small, unitsAt_normal _ small, spacing_normal _ small,
    spacing_normal _ small, Nat.pow_add]
  exact ⟨(Nat.mul_assoc ..).symm, rfl⟩

/-- A place whose next one is two away has an exponent. -/
theorem normal_of_wide {place : Nat} (wide : 2 * unitsPerOne ≤ spacing place) :
    placesPerExponent ≤ place := by
  by_contra small
  rw [spacing_subnormal (Nat.lt_of_not_le small)] at wide
  have one := unitsPerOne_pos
  omega

theorem placesPerExponent_le_unitsPerOne : placesPerExponent ≤ unitsPerOne := by
  decide +kernel

/-- The multiples of a whole number in the row by powers of two are in the row. -/
theorem exists_unitsAt_mul {place : Nat} (whole : unitsPerOne ∣ unitsAt place) (shift : Nat) :
    ∃ scaled, unitsAt scaled = unitsAt place * 2 ^ shift := by
  rcases Nat.lt_or_ge place placesPerExponent with small | normal
  · rw [unitsAt_of_lt small] at whole ⊢
    have zero := Nat.eq_zero_of_dvd_of_lt whole
      (Nat.lt_of_lt_of_le small placesPerExponent_le_unitsPerOne)
    exact ⟨0, by rw [zero, Nat.zero_mul, unitsAt_zero]⟩
  · exact ⟨_, (unitsAt_shift normal shift).1⟩

/-! ## Counts of units -/

theorem nearestPlace_unitsAt (place : Nat) : nearestPlace (unitsAt place) 1 = place := by
  have rounds := unitsAt_roundsTo place Nat.one_pos
  rw [Nat.mul_one] at rounds
  exact (nearestPlace_eq_iff Nat.one_pos).mpr rounds

/-- Less than half the distance to the next place is lost. -/
theorem nearestPlace_add {place added : Nat} (small : 2 * added < spacing place) :
    nearestPlace (unitsAt place + added) 1 = place := by
  rw [nearestPlace_eq_iff Nat.one_pos]
  constructor
  · rintro before rfl
    have under := twiceMiddle_lt before
    omega
  · rw [twiceMiddle, unitsAt_add_spacing]
    omega

theorem nearestPlace_mono {left right : Nat} (ordered : left ≤ right) :
    nearestPlace left 1 ≤ nearestPlace right 1 :=
  (nearestPlace_roundsTo left Nat.one_pos).mono Nat.one_pos
    (nearestPlace_roundsTo right Nat.one_pos) ordered

/-! ## Places beside a count -/

/--
A place adjoins a number of units: its value is this number, or the number lies between two
neighbours of which it is one.
-/
inductive Adjoins (place count : Nat) : Prop where
  | exact (here : unitsAt place = count) : Adjoins place count
  | beside {lower : Nat} (above : unitsAt lower < count) (below : count < unitsAt (lower + 1))
      (near : place = lower ∨ place = lower + 1) : Adjoins place count

theorem settle_near (below : Nat) (side : Ordering) :
    settle below side = below ∨ settle below side = below + 1 := by
  cases side with
  | lt => exact .inl rfl
  | gt => exact .inr rfl
  | eq =>
      rcases Nat.mod_two_eq_zero_or_one below with even | odd
      · exact .inl (by rw [settle, even, Nat.add_zero])
      · exact .inr (by rw [settle, odd])

theorem adjoins_nearestPlace (count : Nat) : Adjoins (nearestPlace count 1) count := by
  obtain ⟨atLeast, below⟩ := placeBelow_spec count
  rcases Nat.lt_or_eq_of_le atLeast with above | here
  · refine .beside above below ?_
    rw [nearestPlace, Nat.div_one]
    exact settle_near _ _
  · rw [← here, nearestPlace_unitsAt]
    exact .exact rfl

namespace Adjoins

variable {place other count : Nat}

/-- A place that adjoins a number follows each place whose value the number reaches. -/
theorem le_place (adjoins : Adjoins place count) (reached : unitsAt other ≤ count) :
    other ≤ place := by
  cases adjoins with
  | exact here => exact unitsAt_strictMono.le_iff_le.mp (here ▸ reached)
  | beside above below near =>
      have before := unitsAt_strictMono.lt_iff_lt.mp (Nat.lt_of_le_of_lt reached below)
      omega

/-- A place that adjoins a number is followed by each place whose value reaches the number. -/
theorem place_le (adjoins : Adjoins place count) (reaches : count ≤ unitsAt other) :
    place ≤ other := by
  cases adjoins with
  | exact here => exact unitsAt_strictMono.le_iff_le.mp (here ▸ reaches)
  | beside above below near =>
      have after := unitsAt_strictMono.lt_iff_lt.mp (Nat.lt_of_lt_of_le above reaches)
      omega

end Adjoins

/-! ## Neighbours of whole numbers -/

theorem exists_two_pow_unitsPerOne : ∃ bits, unitsPerOne = 2 ^ bits :=
  ⟨1074, unitsPerOne_eq⟩

/-- The distance at a place divides one or is a multiple of two. -/
theorem spacing_dvd_or_two_mul_dvd (place : Nat) :
    spacing place ∣ unitsPerOne ∨ 2 * unitsPerOne ∣ spacing place := by
  obtain ⟨bits, is⟩ := exists_two_pow_unitsPerOne
  rw [is, spacing, ← Nat.pow_succ']
  rcases Nat.lt_or_ge bits (place / placesPerExponent - 1) with wide | close
  · exact .inr (Nat.pow_dvd_pow 2 wide)
  · exact .inl (Nat.pow_dvd_pow 2 close)

/-- Where a whole number lies strictly between neighbours, these are apart by a multiple of two. -/
theorem two_mul_unitsPerOne_dvd_spacing {lower number : Nat}
    (above : unitsAt lower < number * unitsPerOne)
    (below : number * unitsPerOne < unitsAt (lower + 1)) : 2 * unitsPerOne ∣ spacing lower := by
  rcases spacing_dvd_or_two_mul_dvd lower with divides | wide
  · -- The number would be a multiple of the distance, as the value below it is.
    have apart : spacing lower ∣ number * unitsPerOne - unitsAt lower :=
      Nat.dvd_sub (Nat.dvd_mul_left_of_dvd divides number) (spacing_dvd_unitsAt lower)
    have reaches := Nat.le_of_dvd (Nat.sub_pos_of_lt above) apart
    rw [unitsAt_add_spacing] at below
    omega
  · exact wide

/-- Whole numbers of units that differ are apart by one. -/
theorem add_unitsPerOne_le {left right : Nat} (leftWhole : unitsPerOne ∣ left)
    (rightWhole : unitsPerOne ∣ right) (before : left < right) : left + unitsPerOne ≤ right := by
  have reaches := Nat.le_of_dvd (Nat.sub_pos_of_lt before) (Nat.dvd_sub rightWhole leftWhole)
  omega

namespace Adjoins

variable {place number : Nat}

/-- The value at a place that adjoins a whole number is this number or its next one is two away. -/
theorem exact_or_wide (adjoins : Adjoins place (number * unitsPerOne)) :
    unitsAt place = number * unitsPerOne ∨ 2 * unitsPerOne ∣ spacing place := by
  cases adjoins with
  | exact here => exact .inl here
  | @beside lower above below near =>
      have ordered : lower ≤ place := by omega
      right
      calc
        2 * unitsPerOne ∣ spacing lower := two_mul_unitsPerOne_dvd_spacing above below
        _ ∣ spacing place := spacing_dvd_spacing ordered

/-- The values at the places that adjoin a whole number are whole. -/
theorem unitsPerOne_dvd (adjoins : Adjoins place (number * unitsPerOne)) :
    unitsPerOne ∣ unitsAt place := by
  rcases adjoins.exact_or_wide with here | apart
  · exact here ▸ Nat.dvd_mul_left _ _
  · calc
      unitsPerOne ∣ 2 * unitsPerOne := Nat.dvd_mul_left _ _
      _ ∣ spacing place := apart
      _ ∣ unitsAt place := spacing_dvd_unitsAt place

end Adjoins

/-! ## Neighbours in value -/

/-- The finite values, and the one that would come after the last of them. -/
def levels : Set ℚ :=
  {level | level = 2 ^ 1024 ∨ ∃ magnitude : Magnitude,
    magnitude.isFinite = true ∧ magnitude.value = level}

theorem unitsAt_top : unitsAt top = 2 ^ 1024 * unitsPerOne := by
  decide +kernel

theorem eq_infinity_of_not_finite {magnitude : Magnitude} (infinite : ¬ magnitude.isFinite = true) :
    magnitude = infinity := by
  rw [isFinite, decide_eq_true_eq, Nat.not_lt] at infinite
  rw [← ofPlace_place magnitude, ofPlace_of_top_le infinite]

end Magnitude

end PrefixArith
