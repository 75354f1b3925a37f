import PrefixArith.Proofs.Decimal.Fewest

/-!
# Decimals as they are written

Whatever a layout decides, the text of a magnitude is a word of digits without needless zeros in
front, maybe a fraction, and maybe an exponent with a sign. It spells the shortest decimal, with some
zeros added behind its digits, and so a numeral with as few significant digits.
-/

namespace PrefixArith

namespace Decimal

/-- A decimal in parts: digits, a fraction and an exponent, if there are any. -/
structure Written where
  whole : List Char
  fraction : Option (List Char)
  exponent : Option Int

namespace Written

/-- The text of a fraction, behind its point. -/
def fractionText : Option (List Char) → List Char
  | none => []
  | some digits => '.' :: digits

/-- The text of an exponent, behind its mark and its sign. -/
def exponentText : Option Int → List Char
  | none => []
  | some exponent => 'e' :: (if exponent < 0 then '-' else '+') :: digits exponent.natAbs

/-- The text of a decimal in parts. -/
def text (written : Written) : List Char :=
  written.whole ++ (fractionText written.fraction ++ exponentText written.exponent)

/-- All digits, without the point between them. -/
def significand (written : Written) : Nat :=
  ofDigits (written.whole ++ written.fraction.getD [])

/-- The power of ten by which the digits are scaled. -/
def scale (written : Written) : Int :=
  written.exponent.getD 0 - (written.fraction.getD []).length

/-- The parts are words of digits where they have to be, and no zero leads other digits. -/
structure IsProper (written : Written) : Prop where
  word : IsWord written.whole
  nonempty : written.whole ≠ []
  leading : written.whole.head? = some '0' → written.whole.length = 1
  fraction : ∀ digits ∈ written.fraction, IsWord digits ∧ digits ≠ []

/-- The parts denote a decimal, with some zeros added behind its digits. -/
structure Denotes (written : Written) (decimal : Scientific) (added : Nat) : Prop where
  significand : written.significand = decimal.significand * power added
  scale : written.scale = decimal.exponent - added

/-! ## Numerals -/

/-- The text of an exponent is one. -/
theorem exponent_exponentText (exponent : Option Int) :
    Exponent (exponentText exponent) (exponent.getD 0) := by
  cases exponent with
  | none => exact .none
  | some exponent =>
      have word : IsWord (digits exponent.natAbs) := fun character => isDigit_of_mem_digits
      have nonempty := Scientific.digits_ne_nil exponent.natAbs
      refine .marked (.inl rfl) ?_
      by_cases negative : exponent < 0
      · have spelled := SignedInteger.of .minus nonempty word
        rw [ofDigits_digits, if_pos rfl, Int.ofNat_natAbs_of_nonpos negative.le, Int.neg_neg]
          at spelled
        rwa [if_pos negative]
      · have spelled := SignedInteger.of .plus nonempty word
        rw [ofDigits_digits, if_neg Bool.false_ne_true, Int.natAbs_of_nonneg (Int.not_lt.mp negative)]
          at spelled
        rwa [if_neg negative]

/-- Behind a sign, or without one, proper parts spell a numeral. -/
theorem IsProper.spelled {written : Written} (proper : written.IsProper) {sign : List Char}
    {negative : Bool} (signed : Sign sign negative) :
    Spelled (sign ++ written.text) ⟨negative, written.significand, written.scale⟩ := by
  obtain ⟨whole, fraction, exponent⟩ := written
  obtain ⟨word, nonempty, -, fractionWord⟩ := proper
  have tail := exponent_exponentText exponent
  cases fraction with
  | none =>
      exact .of signed (.whole word) (by simpa using nonempty) tail
  | some digits =>
      have mantissa := Mantissa.pointed word (fractionWord digits rfl).1
      have spelled := Spelled.of signed mantissa
        (List.append_ne_nil_of_left_ne_nil nonempty digits) tail
      rw [List.append_assoc, List.cons_append] at spelled
      exact spelled

namespace Denotes

variable {written : Written} {decimal : Scientific} {added : Nat}
  (denotes : written.Denotes decimal added)

include denotes

/-- What parts denote has the value of their numeral. -/
theorem value :
    (written.significand * 10 ^ written.scale : ℚ) =
      decimal.significand * 10 ^ decimal.exponent := by
  rw [denotes.significand, denotes.scale, power, Nat.pow_eq, zpow_sub₀ (by norm_num), zpow_natCast]
  push_cast
  field_simp

theorem significantDigits :
    significantDigits written.significand = significantDigits decimal.significand := by
  rw [denotes.significand, significantDigits_mul_power]

end Denotes

end Written

/-! ## Words of digits -/

theorem isWord_digits (number : Nat) : IsWord (digits number) :=
  fun _ => isDigit_of_mem_digits

theorem isWord_zeros (count : Nat) : IsWord (zeros count) :=
  fun _ => isDigit_of_mem_zeros

theorem IsWord.append {left right : List Char} (leftWord : IsWord left) (rightWord : IsWord right) :
    IsWord (left ++ right) :=
  List.forall_mem_append.mpr ⟨leftWord, rightWord⟩

/-- The digits of a positive number start with one other than zero. -/
theorem head?_digits_ne {number : Nat} (positive : 0 < number) :
    (digits number).head? ≠ some '0' := by
  induction number using Nat.strongRecOn with
  | ind number ih =>
      rcases Nat.lt_or_ge number 10 with single | more
      · have last : digits number = [Nat.digitChar number] := Nat.toDigits_of_lt_base single
        have other : ∀ digit < 10, 0 < digit → Nat.digitChar digit ≠ '0' := by decide
        rw [last, List.head?_cons, Option.some_inj.ne]
        exact other number single positive
      · have front : 0 < number / 10 := Nat.div_pos more (by decide)
        have cut : digits number = digits (number / 10) ++ digits (number % 10) := by
          rw [digits, digits, digits,
            Nat.toDigits_append_toDigits (by decide) front (Nat.mod_lt _ (by decide)),
            Nat.div_add_mod]
        rw [cut, List.head?_append_of_ne_nil _ (Scientific.digits_ne_nil _)]
        exact ih _ (Nat.div_lt_self positive (by decide)) front

/-! ## Layouts -/

namespace Scientific

/-- A decimal with a significand other than zero, or a plain zero. -/
def IsReduced (decimal : Scientific) : Prop :=
  decimal.significand = 0 → decimal.exponent = 0

variable {decimal : Scientific}

/-- A zero in front of the digits of a reduced decimal is all there is of it. -/
theorem IsReduced.exponent_eq (reduced : decimal.IsReduced)
    (zero : (digits decimal.significand).head? = some '0') :
    decimal.significand = 0 ∧ decimal.exponent = 0 := by
  have none : decimal.significand = 0 := by
    by_contra some
    exact head?_digits_ne (Nat.pos_of_ne_zero some) zero
  exact ⟨none, reduced none⟩

/-- A whole decimal is written with zeros behind its digits, and maybe with one more as a fraction. -/
theorem exists_written_whole {mark : List Char} (isMark : mark = [] ∨ mark = ['.', '0'])
    {significand after : Nat} (reduced : IsReduced ⟨significand, .ofNat after⟩) :
    ∃ (written : Written) (added : Nat),
      positionalText mark ⟨significand, .ofNat after⟩ = written.text ∧ written.IsProper ∧
      written.Denotes ⟨significand, .ofNat after⟩ added ∧ added ≤ after + 1 ∧
      (mark ≠ [] → written.fraction.isSome = true) := by
  have word := (isWord_digits significand).append (isWord_zeros after)
  have nonempty : digits significand ++ zeros after ≠ [] :=
    List.append_ne_nil_of_left_ne_nil (digits_ne_nil _) _
  have leading : (digits significand ++ zeros after).head? = some '0' →
      (digits significand ++ zeros after).length = 1 := by
    intro zero
    rw [List.head?_append_of_ne_nil _ (digits_ne_nil _)] at zero
    obtain ⟨none, last⟩ := reduced.exponent_eq zero
    obtain rfl : significand = 0 := none
    obtain rfl : after = 0 := Int.ofNat_eq_zero.mp last
    rfl
  rcases isMark with rfl | rfl
  · refine ⟨⟨digits significand ++ zeros after, none, none⟩, after, rfl,
      ⟨word, nonempty, leading, nofun⟩, ⟨?_, ?_⟩, Nat.le_succ after, absurd rfl⟩
    · rw [Written.significand, Option.getD_none, List.append_nil, ofDigits_append_zeros,
        ofDigits_digits]
    · simp [Written.scale]
  · refine ⟨⟨digits significand ++ zeros after, some ['0'], none⟩, after + 1, rfl,
      ⟨word, nonempty, leading, ?_⟩, ⟨?_, ?_⟩, Nat.le_refl _, fun _ => rfl⟩
    · rintro _ ⟨⟩
      exact ⟨isWord_zeros 1, List.cons_ne_nil _ _⟩
    · have zero : ['0'] = zeros 1 := rfl
      rw [Written.significand, Option.getD_some, zero, ofDigits_append_zeros,
        ofDigits_append_zeros, ofDigits_digits, Nat.mul_assoc, ← power_add]
    · simp [Written.scale]

/-- A decimal with a fraction is written with the point among its digits or zeros before them. -/
theorem exists_written_fraction (mark : List Char) {significand before : Nat}
    (reduced : IsReduced ⟨significand, .negSucc before⟩) :
    ∃ written : Written, positionalText mark ⟨significand, .negSucc before⟩ = written.text ∧
      written.IsProper ∧ written.Denotes ⟨significand, .negSucc before⟩ 0 ∧
      written.fraction.isSome = true := by
  simp only [positionalText]
  split
  case isTrue inside =>
      generalize point : (digits significand).length - (before + 1) = count
      have some : 0 < count := by omega
      have length : ((digits significand).drop count).length = before + 1 := by
        rw [List.length_drop]
        omega
      have word : IsWord ((digits significand).take count) := fun character member =>
        isDigit_of_mem_digits (List.mem_of_mem_take member)
      have fraction : IsWord ((digits significand).drop count) := fun character member =>
        isDigit_of_mem_digits (List.mem_of_mem_drop member)
      refine ⟨⟨(digits significand).take count, Option.some ((digits significand).drop count),
        none⟩, ?_, ⟨word, ?_, ?_, ?_⟩, ⟨?_, ?_⟩, rfl⟩
      · simp [Written.text, Written.fractionText, Written.exponentText]
      · rw [← List.length_pos_iff, List.length_take]
        omega
      · intro zero
        rw [List.head?_take, if_neg some.ne'] at zero
        cases (reduced.exponent_eq zero).2
      · rintro _ ⟨⟩
        refine ⟨fraction, ?_⟩
        rw [← List.length_pos_iff, length]
        exact Nat.succ_pos before
      · rw [Written.significand, Option.getD_some, List.take_append_drop, ofDigits_digits,
          power_zero, Nat.mul_one]
      · rw [Written.scale, Option.getD_none, Option.getD_some, length, Int.negSucc_eq]
        simp
  case isFalse outside =>
      generalize gap : before + 1 - (digits significand).length = count
      have length : (zeros count ++ digits significand).length = before + 1 := by
        rw [List.length_append, zeros, List.length_replicate]
        omega
      refine ⟨⟨zeros 1, Option.some (zeros count ++ digits significand), none⟩, ?_,
        ⟨isWord_zeros 1, List.cons_ne_nil _ _, fun _ => rfl, ?_⟩, ⟨?_, ?_⟩, rfl⟩
      · simp [Written.text, Written.fractionText, Written.exponentText, zeros]
      · rintro _ ⟨⟩
        exact ⟨(isWord_zeros count).append (isWord_digits significand),
          List.append_ne_nil_of_right_ne_nil _ (digits_ne_nil _)⟩
      · rw [Written.significand, Option.getD_some, ofDigits_zeros_append, ofDigits_zeros_append,
          ofDigits_digits, power_zero, Nat.mul_one]
      · rw [Written.scale, Option.getD_none, Option.getD_some, length, Int.negSucc_eq]
        simp

/-- With an exponent, a decimal is written with one digit before the point. -/
theorem exists_written_exponent (decimal : Scientific) :
    ∃ written : Written, decimal.exponentText = written.text ∧ written.IsProper ∧
      written.Denotes decimal 0 ∧ written.exponent.isSome = true := by
  obtain ⟨significand, exponent⟩ := decimal
  have word := isWord_digits significand
  have value := ofDigits_digits significand
  have leading : leading ⟨significand, exponent⟩ =
      exponent + (digits significand).length - 1 := rfl
  unfold exponentText
  generalize Scientific.leading ⟨significand, exponent⟩ = first at leading
  dsimp only
  cases characters : digits significand with
  | nil => exact absurd characters (digits_ne_nil _)
  | cons digit others =>
      rw [characters] at word value leading
      have single : IsWord [digit] :=
        List.forall_mem_singleton.mpr (word digit List.mem_cons_self)
      cases others with
      | nil =>
          refine ⟨⟨[digit], none, some first⟩, rfl,
            ⟨single, List.cons_ne_nil _ _, fun _ => rfl, nofun⟩, ⟨?_, ?_⟩, rfl⟩
          · rw [Written.significand, Option.getD_none, List.append_nil, value, power_zero,
              Nat.mul_one]
          · simp [Written.scale, leading]
      | cons second rest =>
          have fraction : IsWord (second :: rest) := fun character member =>
            word character (List.mem_cons_of_mem _ member)
          refine ⟨⟨[digit], some (second :: rest), some first⟩, rfl,
            ⟨single, List.cons_ne_nil _ _, fun _ => rfl, ?_⟩, ⟨?_, ?_⟩, rfl⟩
          · rintro _ ⟨⟩
            exact ⟨fraction, List.cons_ne_nil _ _⟩
          · rw [Written.significand, Option.getD_some, List.singleton_append, value, power_zero,
              Nat.mul_one]
          · simp only [Written.scale, Option.getD_some, leading, List.length_cons]
            omega

end Scientific

theorem isReduced_shortest (tie : Tie) {magnitude : Magnitude} :
    (shortest tie magnitude).IsReduced := by
  intro none
  by_cases zero : magnitude.place = 0
  · rw [shortest, if_pos zero]
  · have positive := pos_of_isNearest zero (shortest_isNearest tie magnitude)
    exact absurd none positive.ne'

/--
The text of a magnitude in a layout is made of proper parts that denote its shortest decimal. Zeros
are added only to a whole number that is written positionally, at most one behind the point. There is
a fraction or an exponent if the layout marks whole numbers.
-/
theorem Layout.exists_written {layout : Layout}
    (isMark : layout.wholeMark = [] ∨ layout.wholeMark = ['.', '0']) (magnitude : Magnitude) :
    ∃ (written : Written) (added : Nat), layout.magnitudeText magnitude = written.text ∧
      written.IsProper ∧ written.Denotes (shortest layout.tie magnitude) added ∧
      (added = 0 ∨ layout.positional (shortest layout.tie magnitude).leading = true ∧
        (added : Int) ≤ (shortest layout.tie magnitude).exponent + 1) ∧
      (layout.wholeMark ≠ [] → written.fraction.isSome = true ∨ written.exponent.isSome = true) := by
  have reduced := @isReduced_shortest layout.tie magnitude
  unfold magnitudeText
  generalize shortest layout.tie magnitude = decimal at reduced
  dsimp only
  split
  · next positional =>
      obtain ⟨significand, exponent⟩ := decimal
      cases exponent with
      | ofNat after =>
          obtain ⟨written, added, text, proper, denotes, bound, fraction⟩ :=
            Scientific.exists_written_whole isMark reduced
          exact ⟨written, added, text, proper, denotes, .inr ⟨positional, Int.ofNat_le.mpr bound⟩,
            fun marks => .inl (fraction marks)⟩
      | negSucc before =>
          obtain ⟨written, text, proper, denotes, fraction⟩ :=
            Scientific.exists_written_fraction layout.wholeMark reduced
          exact ⟨written, 0, text, proper, denotes, .inl rfl, fun _ => .inl fraction⟩
  · obtain ⟨written, text, proper, denotes, exponent⟩ := decimal.exists_written_exponent
    exact ⟨written, 0, text, proper, denotes, .inl rfl, fun _ => .inr exponent⟩

end Decimal

end PrefixArith
