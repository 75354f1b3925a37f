import PrefixArith.Proofs.Binary64.Neighbours
import PrefixArith.Proofs.Numeral.Language

/-!
# Accumulated digits

The digits of a literal are accumulated from place to place of the row, as if it went on past
infinity. The place reached adjoins the exact value: while this has few bits the place is exact, and
once it is not, its neighbours are so far apart that every further digit is lost and only raises the
exponent. Of two words of digits the one with the greater value reaches no lesser place.
-/

namespace PrefixArith

namespace Numeral

open Magnitude

/-- The place after one more digit, in the row without an end. -/
def nextPlace (base place digit : Nat) : Nat :=
  nearestPlace (unitsAt place * base + digit * unitsPerOne) 1

/-- The place that digits lead to, in the row without an end. -/
def accumulatedPlace (base : Nat) (digits : List Nat) : Nat :=
  digits.foldl (nextPlace base) 0

variable {bits place digit number : Nat} {digits : List Nat}

/-! ## One digit -/

/-- Where the next place is two away, a digit is lost. -/
theorem nextPlace_of_wide (wide : 2 * unitsPerOne ≤ spacing place) (small : digit < 2 ^ bits) :
    nextPlace (2 ^ bits) place digit = place + bits * placesPerExponent := by
  obtain ⟨value, raised⟩ := unitsAt_shift (normal_of_wide wide) bits
  rw [nextPlace, ← value]
  apply nearestPlace_add
  calc
    2 * (digit * unitsPerOne) = 2 * unitsPerOne * digit := by ring
    _ < 2 * unitsPerOne * 2 ^ bits :=
      Nat.mul_lt_mul_of_pos_left small (Nat.mul_pos Nat.two_pos unitsPerOne_pos)
    _ ≤ spacing place * 2 ^ bits := Nat.mul_le_mul_right _ wide
    _ = spacing (place + bits * placesPerExponent) := raised.symm

/-- One more digit leads from a place that adjoins a number to one that adjoins the longer one. -/
theorem adjoins_nextPlace (adjoins : Adjoins place (number * unitsPerOne))
    (small : digit < 2 ^ bits) :
    Adjoins (nextPlace (2 ^ bits) place digit) ((number * 2 ^ bits + digit) * unitsPerOne) := by
  cases adjoins with
  | exact here =>
      have longer : unitsAt place * 2 ^ bits + digit * unitsPerOne =
          (number * 2 ^ bits + digit) * unitsPerOne := by
        rw [here]
        ring
      rw [nextPlace, longer]
      exact adjoins_nearestPlace _
  | @beside lower above below near =>
      have apart := two_mul_unitsPerOne_dvd_spacing above below
      have wide := Nat.le_of_dvd (Nat.two_pow_pos _) apart
      have ordered : lower ≤ place := by omega
      have normal := normal_of_wide wide
      rw [nextPlace_of_wide (Nat.le_trans wide (spacing_mono ordered)) small]
      -- The neighbours are raised alike, and the digit does not reach the upper one.
      have overLower : unitsAt (lower + bits * placesPerExponent) <
          (number * 2 ^ bits + digit) * unitsPerOne := by
        rw [(unitsAt_shift normal bits).1]
        calc
          unitsAt lower * 2 ^ bits < number * unitsPerOne * 2 ^ bits :=
            Nat.mul_lt_mul_of_pos_right above (Nat.two_pow_pos bits)
          _ = number * 2 ^ bits * unitsPerOne := by ring
          _ ≤ (number * 2 ^ bits + digit) * unitsPerOne :=
            Nat.mul_le_mul_right _ (Nat.le_add_right _ _)
      have underUpper : (number * 2 ^ bits + digit) * unitsPerOne <
          unitsAt (lower + bits * placesPerExponent + 1) := by
        rw [Nat.add_right_comm, (unitsAt_shift (Nat.le_succ_of_le normal) bits).1]
        have whole : unitsPerOne ∣ unitsAt (lower + 1) :=
          Nat.dvd_trans (Nat.dvd_trans (Nat.dvd_mul_left _ _) apart)
            (spacing_dvd_unitsAt_of_le (Nat.le_succ lower))
        have reached := add_unitsPerOne_le (Nat.dvd_mul_left _ number) whole below
        calc
          (number * 2 ^ bits + digit) * unitsPerOne <
              (number * 2 ^ bits + 2 ^ bits) * unitsPerOne :=
            Nat.mul_lt_mul_of_pos_right (Nat.add_lt_add_left small _) unitsPerOne_pos
          _ = (number * unitsPerOne + unitsPerOne) * 2 ^ bits := by ring
          _ ≤ unitsAt (lower + 1) * 2 ^ bits := Nat.mul_le_mul_right _ reached
      exact .beside overLower underUpper (by omega)

/-- One more digit keeps the order of places that adjoin numbers. -/
theorem nextPlace_le_nextPlace {left right lower upper first second : Nat}
    (toLeft : Adjoins left (lower * unitsPerOne)) (toRight : Adjoins right (upper * unitsPerOne))
    (ordered : lower ≤ upper → left ≤ right) (reversed : upper ≤ lower → right ≤ left)
    (firstSmall : first < 2 ^ bits) (secondSmall : second < 2 ^ bits)
    (longer : lower * 2 ^ bits + first ≤ upper * 2 ^ bits + second) :
    nextPlace (2 ^ bits) left first ≤ nextPlace (2 ^ bits) right second := by
  have fronts : lower ≤ upper := by
    by_contra crossed
    have scaled := Nat.mul_le_mul_right (2 ^ bits) (Nat.lt_of_not_le crossed)
    rw [Nat.succ_mul] at scaled
    omega
  rcases Nat.lt_or_eq_of_le fronts with before | rfl
  · rcases Nat.lt_or_eq_of_le (ordered fronts) with apart | rfl
    · -- The values at the places are whole, so the step between them outweighs a digit.
      have reached := add_unitsPerOne_le toLeft.unitsPerOne_dvd toRight.unitsPerOne_dvd
        (unitsAt_strictMono apart)
      apply nearestPlace_mono
      calc
        unitsAt left * 2 ^ bits + first * unitsPerOne ≤
            unitsAt left * 2 ^ bits + 2 ^ bits * unitsPerOne :=
          Nat.add_le_add_left (Nat.mul_le_mul_right _ (Nat.le_of_lt firstSmall)) _
        _ = (unitsAt left + unitsPerOne) * 2 ^ bits := by ring
        _ ≤ unitsAt right * 2 ^ bits := Nat.mul_le_mul_right _ reached
        _ ≤ unitsAt right * 2 ^ bits + second * unitsPerOne := Nat.le_add_right _ _
    · -- A place that adjoins two numbers is not exact for both.
      have wide : 2 * unitsPerOne ∣ spacing left := by
        rcases toLeft.exact_or_wide with here | wide
        · rcases toRight.exact_or_wide with there | wide
          · have numbers := Nat.eq_of_mul_eq_mul_right unitsPerOne_pos (here.symm.trans there)
            omega
          · exact wide
        · exact wide
      have reached := Nat.le_of_dvd (Nat.two_pow_pos _) wide
      rw [nextPlace_of_wide reached firstSmall, nextPlace_of_wide reached secondSmall]
  · obtain rfl := Nat.le_antisymm (ordered fronts) (reversed fronts)
    apply nearestPlace_mono
    exact Nat.add_le_add_left (Nat.mul_le_mul_right _ (Nat.le_of_add_le_add_left longer)) _

/-! ## All digits -/

theorem accumulatedPlace_concat (base : Nat) (digits : List Nat) (digit : Nat) :
    accumulatedPlace base (digits ++ [digit]) =
      nextPlace base (accumulatedPlace base digits) digit := by
  rw [accumulatedPlace, List.foldl_concat, accumulatedPlace]

theorem ofDigits_concat (base : Nat) (digits : List Nat) (digit : Nat) :
    Text.ofDigits base (digits ++ [digit]) = Text.ofDigits base digits * base + digit := by
  rw [Text.ofDigits, List.foldl_concat, Text.ofDigits]

/-- Digits lead to a place that adjoins their number. -/
theorem adjoins_accumulatedPlace (small : ∀ digit ∈ digits, digit < 2 ^ bits) :
    Adjoins (accumulatedPlace (2 ^ bits) digits)
      (Text.ofDigits (2 ^ bits) digits * unitsPerOne) := by
  induction digits using List.reverseRecOn with
  | nil =>
      refine .exact ?_
      rw [accumulatedPlace, List.foldl_nil, unitsAt_zero, Text.ofDigits, List.foldl_nil,
        Nat.zero_mul]
  | append_singleton digits digit ih =>
      rw [List.forall_mem_append, List.forall_mem_singleton] at small
      rw [accumulatedPlace_concat, ofDigits_concat]
      exact adjoins_nextPlace (ih small.1) small.2

/-- Of as many digits, those of the greater number lead to no lesser place. -/
theorem accumulatedPlace_mono {left right : List Nat} (sameLength : left.length = right.length)
    (leftSmall : ∀ digit ∈ left, digit < 2 ^ bits)
    (rightSmall : ∀ digit ∈ right, digit < 2 ^ bits) :
    (Text.ofDigits (2 ^ bits) left ≤ Text.ofDigits (2 ^ bits) right →
      accumulatedPlace (2 ^ bits) left ≤ accumulatedPlace (2 ^ bits) right) ∧
    (Text.ofDigits (2 ^ bits) right ≤ Text.ofDigits (2 ^ bits) left →
      accumulatedPlace (2 ^ bits) right ≤ accumulatedPlace (2 ^ bits) left) := by
  induction left using List.reverseRecOn generalizing right with
  | nil =>
      obtain rfl := List.eq_nil_of_length_eq_zero sameLength.symm
      exact ⟨fun _ => Nat.le_refl _, fun _ => Nat.le_refl _⟩
  | append_singleton left first ih =>
      rcases List.eq_nil_or_concat' right with rfl | ⟨right, second, rfl⟩
      · simp at sameLength
      · simp only [List.length_append, List.length_singleton, Nat.add_right_cancel_iff]
          at sameLength
        rw [List.forall_mem_append, List.forall_mem_singleton] at leftSmall rightSmall
        simp only [ofDigits_concat, accumulatedPlace_concat]
        have toLeft := adjoins_accumulatedPlace leftSmall.1
        have toRight := adjoins_accumulatedPlace rightSmall.1
        obtain ⟨ordered, reversed⟩ := ih sameLength leftSmall.1 rightSmall.1
        constructor
        · exact nextPlace_le_nextPlace toLeft toRight ordered reversed leftSmall.2 rightSmall.2
        · exact nextPlace_le_nextPlace toRight toLeft reversed ordered rightSmall.2 leftSmall.2

/-! ## Words of any length -/

/-- A fold that rests at zeros takes no notice of leading ones. -/
theorem foldl_leftpad {step : Nat → Nat → Nat} {start : Nat} (rests : step start 0 = start)
    (length : Nat) (digits : List Nat) :
    (digits.leftpad length 0).foldl step start = digits.foldl step start := by
  have zeros (count : Nat) : (List.replicate count 0).foldl step start = start := by
    induction count with
    | zero => rfl
    | succ count ih => rw [List.replicate_succ, List.foldl_cons, rests, ih]
  rw [List.leftpad, List.foldl_append, zeros]

theorem accumulatedPlace_leftpad (base length : Nat) (digits : List Nat) :
    accumulatedPlace base (digits.leftpad length 0) = accumulatedPlace base digits := by
  have first := nearestPlace_unitsAt 0
  rw [unitsAt_zero] at first
  apply foldl_leftpad
  rw [nextPlace, unitsAt_zero, Nat.zero_mul, Nat.zero_mul, first]

theorem ofDigits_leftpad (base length : Nat) (digits : List Nat) :
    Text.ofDigits base (digits.leftpad length 0) = Text.ofDigits base digits := by
  apply foldl_leftpad
  rw [Nat.zero_mul, Nat.add_zero]

theorem forall_mem_leftpad {base length : Nat} {digits : List Nat} (positive : 0 < base)
    (small : ∀ digit ∈ digits, digit < base) :
    ∀ digit ∈ digits.leftpad length 0, digit < base := by
  rw [List.leftpad, List.forall_mem_append]
  refine ⟨fun digit member => ?_, small⟩
  rwa [List.eq_of_mem_replicate member]

/-- The digits of a greater number lead to no lesser place. -/
theorem accumulatedPlace_le {left right : List Nat} (leftSmall : ∀ digit ∈ left, digit < 2 ^ bits)
    (rightSmall : ∀ digit ∈ right, digit < 2 ^ bits)
    (ordered : Text.ofDigits (2 ^ bits) left ≤ Text.ofDigits (2 ^ bits) right) :
    accumulatedPlace (2 ^ bits) left ≤ accumulatedPlace (2 ^ bits) right := by
  have sameLength : (left.leftpad right.length 0).length =
      (right.leftpad left.length 0).length := by
    rw [List.length_leftpad, List.length_leftpad, Nat.max_comm]
  have positive := Nat.two_pow_pos bits
  have padded := (accumulatedPlace_mono sameLength (forall_mem_leftpad positive leftSmall)
    (forall_mem_leftpad positive rightSmall)).1
  simp only [accumulatedPlace_leftpad, ofDigits_leftpad] at padded
  exact padded ordered

/-! ## The row with its end -/

/--
A place past infinity may be taken for infinity: what it is scaled and added up to is infinite.
-/
theorem nearest_units_ofPlace (place added : Nat) {factor : Nat} (positive : 0 < factor) :
    nearest ((ofPlace place).units * factor + added) 1 =
      nearest (unitsAt place * factor + added) 1 := by
  rcases Nat.le_total place top with inside | past
  · rw [units, place_ofPlace inside]
  · have grown (units : Nat) (reached : unitsAt top ≤ units) :
        unitsAt top * 1 ≤ units * factor + added := by
      rw [Nat.mul_one]
      calc
        unitsAt top ≤ units := reached
        _ ≤ units * factor := Nat.le_mul_of_pos_right units positive
        _ ≤ units * factor + added := Nat.le_add_right _ _
    have last : infinity.units = unitsAt top := by
      rw [units, infinity, place_ofPlace (Nat.le_refl _)]
    rw [ofPlace_of_top_le past, last, nearest_eq_infinity Nat.one_pos (grown _ (Nat.le_refl _)),
      nearest_eq_infinity Nat.one_pos (grown _ (unitsAt_strictMono.monotone past))]

/-- Accumulating one more digit in magnitudes is a step in the row. -/
theorem ofPlace_nextPlace (whole : unitsPerOne ∣ unitsAt place) (baseSmall : 2 ^ bits ≤ 16)
    (small : digit ≤ 16) :
    ((ofPlace place).mul (.ofNat (2 ^ bits))).add (.ofNat digit) =
      ofPlace (nextPlace (2 ^ bits) place digit) := by
  obtain ⟨scaled, value⟩ := exists_unitsAt_mul whole bits
  have product : (ofPlace place).mul (.ofNat (2 ^ bits)) = ofPlace scaled := by
    calc
      (ofPlace place).mul (.ofNat (2 ^ bits)) =
          nearest ((ofPlace place).units * (2 ^ bits * unitsPerOne)) unitsPerOne := by
        rw [mul, units_ofNat (Nat.le_trans baseSmall (by decide))]
      _ = nearest ((ofPlace place).units * 2 ^ bits + 0) 1 :=
        nearest_eq_of_ratio unitsPerOne_pos Nat.one_pos (by ring)
      _ = nearest (unitsAt scaled) 1 := by
        rw [nearest_units_ofPlace place 0 (Nat.two_pow_pos bits), value, Nat.add_zero]
      _ = ofPlace scaled := by
        rw [nearest, nearestPlace_unitsAt]
  have sum := nearest_units_ofPlace scaled (digit * unitsPerOne) Nat.one_pos
  rw [Nat.mul_one, Nat.mul_one, value] at sum
  rw [product, add, units_ofNat (Nat.le_trans small (by decide)), sum, nearest, nextPlace]

/-- Digits accumulate to the magnitude at the place that they lead to. -/
theorem accumulate_eq (baseSmall : 2 ^ bits ≤ 16) (small : ∀ digit ∈ digits, digit < 2 ^ bits) :
    accumulate (2 ^ bits) digits = ofPlace (accumulatedPlace (2 ^ bits) digits) := by
  induction digits using List.reverseRecOn with
  | nil => rfl
  | append_singleton digits digit ih =>
      rw [List.forall_mem_append, List.forall_mem_singleton] at small
      rw [accumulate_concat, accumulatedPlace_concat, ih small.1]
      exact ofPlace_nextPlace (adjoins_accumulatedPlace small.1).unitsPerOne_dvd baseSmall
        (Nat.le_of_lt (Nat.lt_of_lt_of_le small.2 baseSmall))

/-! ## Digits of literals -/

/-- The place that the digits of a literal are read at, in the row without an end. -/
def literalPlace (base : Nat) (digits : List Nat) : Nat :=
  if Text.ofDigits base digits < 2 ^ 128 then
    nearestPlace (Text.ofDigits base digits * unitsPerOne) 1
  else accumulatedPlace base digits

theorem integerMagnitude_eq (baseSmall : 2 ^ bits ≤ 16)
    (small : ∀ digit ∈ digits, digit < 2 ^ bits) :
    integerMagnitude (2 ^ bits) digits = ofPlace (literalPlace (2 ^ bits) digits) := by
  rw [integerMagnitude, width_eq, literalPlace]
  split
  · rfl
  · exact accumulate_eq baseSmall small

/-- The digits of a literal are read at a place that adjoins their number. -/
theorem adjoins_literalPlace (small : ∀ digit ∈ digits, digit < 2 ^ bits) :
    Adjoins (literalPlace (2 ^ bits) digits) (Text.ofDigits (2 ^ bits) digits * unitsPerOne) := by
  rw [literalPlace]
  split
  · exact adjoins_nearestPlace _
  · exact adjoins_accumulatedPlace small

/-- The place of `2 ^ 128`, from which on digits are accumulated. -/
def widePlace : Nat := 0x47F0000000000000

theorem unitsAt_widePlace : unitsAt widePlace = 2 ^ 128 * unitsPerOne := by
  decide +kernel

/-- The digits of a greater number are read at no lesser place. -/
theorem literalPlace_mono {left right : List Nat} (leftSmall : ∀ digit ∈ left, digit < 2 ^ bits)
    (rightSmall : ∀ digit ∈ right, digit < 2 ^ bits)
    (ordered : Text.ofDigits (2 ^ bits) left ≤ Text.ofDigits (2 ^ bits) right) :
    literalPlace (2 ^ bits) left ≤ literalPlace (2 ^ bits) right := by
  have toLeft := adjoins_literalPlace leftSmall
  have toRight := adjoins_literalPlace rightSmall
  rcases Nat.lt_or_ge (Text.ofDigits (2 ^ bits) left) (2 ^ 128) with narrow | wide
  · rcases Nat.lt_or_ge (Text.ofDigits (2 ^ bits) right) (2 ^ 128) with alsoNarrow | wide
    · rw [literalPlace, if_pos narrow, literalPlace, if_pos alsoNarrow]
      exact nearestPlace_mono (Nat.mul_le_mul_right _ ordered)
    · -- Between the two ways of reading lies the place of `2 ^ 128`.
      have before := Nat.mul_le_mul_right unitsPerOne (Nat.le_of_lt narrow)
      have after := Nat.mul_le_mul_right unitsPerOne wide
      rw [← unitsAt_widePlace] at before after
      exact Nat.le_trans (toLeft.place_le before) (toRight.le_place after)
  · have alsoWide := Nat.le_trans wide ordered
    rw [literalPlace, if_neg (Nat.not_lt.mpr wide), literalPlace,
      if_neg (Nat.not_lt.mpr alsoWide)]
    exact accumulatedPlace_le leftSmall rightSmall ordered

end Numeral

end PrefixArith
