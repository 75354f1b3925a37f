import Mathlib.Data.List.TakeWhile
import PrefixArith.Decimal.Layout
import PrefixArith.Proofs.Decimal.Grammar

/-!
# Positional texts

A positional text is a word of digits, or two of them around a point. It is read as the number that
its digits spell without the point, scaled down by a power of ten for each digit after it. Decimals
that are laid out positionally have such a text, and it denotes the magnitude of the decimal.
-/

namespace PrefixArith

namespace Decimal

/-! ## Words of digits -/

theorem ofDigits_eq (word : List Char) : ofDigits word = Nat.ofDigitChars 10 word 0 := by
  simp only [ofDigits, Text.ofDigits, Nat.ofDigitChars, List.foldl_map, digitValue, Nat.mul_comm]

theorem ofDigits_digits (value : Nat) : ofDigits (digits value) = value := by
  rw [ofDigits_eq, digits, Nat.ofDigitChars_ten_toDigits]

theorem digits_injective : Function.Injective digits :=
  Function.LeftInverse.injective ofDigits_digits

/-- Zeros after a word scale up the number it denotes. -/
theorem ofDigits_append_zeros (word : List Char) (count : Nat) :
    ofDigits (word ++ zeros count) = ofDigits word * power count := by
  rw [ofDigits_eq, ofDigits_eq, zeros, Nat.ofDigitChars_append, Nat.ofDigitChars_replicate_zero,
    Nat.mul_comm, power, Nat.pow_eq]

/-- Zeros in front of a word change nothing. -/
theorem ofDigits_zeros_append (count : Nat) (word : List Char) :
    ofDigits (zeros count ++ word) = ofDigits word := by
  rw [ofDigits_eq, ofDigits_eq, zeros, Nat.ofDigitChars_append, Nat.ofDigitChars_replicate_zero,
    Nat.mul_zero]

theorem isDigit_of_mem_digits {value : Nat} {character : Char} (member : character ∈ digits value) :
    character.isDigit = true :=
  Nat.isDigit_of_mem_toDigits (by decide) (by decide) member

theorem isDigit_of_mem_zeros {count : Nat} {character : Char} (member : character ∈ zeros count) :
    character.isDigit = true := by
  rw [List.eq_of_mem_replicate member]
  rfl

/-! ## Digits with at most one point -/

/-- A positional text, with the number and the exponent that it is read as. -/
inductive Positional : List Char → Nat → Int → Prop where
  | whole {word : List Char} (nonempty : word ≠ [])
      (digits : ∀ character ∈ word, character.isDigit = true) :
      Positional word (ofDigits word) 0
  | fraction {before after : List Char} (nonempty : before ≠ [])
      (beforeDigits : ∀ character ∈ before, character.isDigit = true)
      (afterDigits : ∀ character ∈ after, character.isDigit = true) :
      Positional (before ++ '.' :: after) (ofDigits (before ++ after)) (-after.length)

namespace Positional

variable {text : List Char} {significand : Nat} {exponent : Int}

/-- A positional text starts with a digit, and what follows is a digit or the point. -/
theorem exists_cons (positional : Positional text significand exponent) :
    ∃ first rest, text = first :: rest ∧ first.isDigit = true ∧
      ∀ character ∈ rest, character.isDigit = true ∨ character = '.' := by
  cases positional with
  | whole nonempty digits =>
      obtain ⟨first, rest, rfl⟩ := List.exists_cons_of_ne_nil nonempty
      refine ⟨first, rest, rfl, digits first (List.mem_cons_self ..), ?_⟩
      intro character member
      exact .inl (digits character (List.mem_cons_of_mem _ member))
  | @fraction before after nonempty beforeDigits afterDigits =>
      obtain ⟨first, rest, rfl⟩ := List.exists_cons_of_ne_nil nonempty
      refine ⟨first, rest ++ '.' :: after, rfl, beforeDigits first (List.mem_cons_self ..), ?_⟩
      intro character member
      rcases List.mem_append.mp member with inBefore | inAfter
      · exact .inl (beforeDigits character (List.mem_cons_of_mem _ inBefore))
      · rcases List.mem_cons.mp inAfter with point | inFraction
        · exact .inr point
        · exact .inl (afterDigits character inFraction)

/-- Behind a sign, or without one, a positional text is read as what it spells. -/
theorem read?_eq {sign : List Char} {negative : Bool}
    (positional : Positional text significand exponent) (signed : Sign sign negative) :
    Numeral.read? (sign ++ text) = some ⟨negative, significand, exponent⟩ := by
  rw [Numeral.read?_eq_some_iff]
  cases positional with
  | whole nonempty digits =>
      have spelled := Spelled.of signed (.whole digits) (by rwa [List.append_nil]) .none
      simpa using spelled
  | fraction nonempty beforeDigits afterDigits =>
      have spelled := Spelled.of signed (.pointed beforeDigits afterDigits)
        (List.append_ne_nil_of_left_ne_nil nonempty _) .none
      simpa using spelled

end Positional

/-! ## Decimals laid out -/

namespace Scientific

theorem digits_ne_nil (value : Nat) : digits value ≠ [] :=
  Nat.toDigits_ne_nil

/-- A whole decimal is laid out with zeros after its digits. -/
theorem positional_ofNat (significand after : Nat) :
    Positional (positionalText [] ⟨significand, .ofNat after⟩) (significand * power after) 0 := by
  have layout : positionalText [] ⟨significand, .ofNat after⟩ =
      digits significand ++ zeros after := List.append_nil _
  have value : significand * power after = ofDigits (digits significand ++ zeros after) := by
    rw [ofDigits_append_zeros, ofDigits_digits]
  rw [layout, value]
  apply Positional.whole (List.append_ne_nil_of_left_ne_nil (digits_ne_nil _) _)
  intro character member
  rcases List.mem_append.mp member with inDigits | inZeros
  · exact isDigit_of_mem_digits inDigits
  · exact isDigit_of_mem_zeros inZeros

/-- A decimal with a fraction is laid out with the point among its digits or zeros before them. -/
theorem positional_negSucc (significand before : Nat) :
    Positional (positionalText [] ⟨significand, .negSucc before⟩) significand
      (.negSucc before) := by
  simp only [positionalText]
  split
  case isTrue inside =>
      generalize point : (digits significand).length - (before + 1) = count
      have length : ((digits significand).drop count).length = before + 1 := by
        rw [List.length_drop]
        omega
      have value : significand =
          ofDigits ((digits significand).take count ++ (digits significand).drop count) := by
        rw [List.take_append_drop, ofDigits_digits]
      have nonempty : (digits significand).take count ≠ [] := by
        rw [← List.length_pos_iff, List.length_take]
        omega
      have beforeDigits : ∀ character ∈ (digits significand).take count,
          character.isDigit = true := by
        intro character member
        exact isDigit_of_mem_digits (List.mem_of_mem_take member)
      have afterDigits : ∀ character ∈ (digits significand).drop count,
          character.isDigit = true := by
        intro character member
        exact isDigit_of_mem_digits (List.mem_of_mem_drop member)
      have positional := Positional.fraction nonempty beforeDigits afterDigits
      rwa [← value, length] at positional
  case isFalse outside =>
      generalize gap : before + 1 - (digits significand).length = count
      have length : (zeros count ++ digits significand).length = before + 1 := by
        rw [List.length_append, zeros, List.length_replicate]
        omega
      have value : significand = ofDigits (zeros 1 ++ (zeros count ++ digits significand)) := by
        rw [ofDigits_zeros_append, ofDigits_zeros_append, ofDigits_digits]
      have beforeDigits : ∀ character ∈ zeros 1, character.isDigit = true := by
        intro character member
        exact isDigit_of_mem_zeros member
      have afterDigits : ∀ character ∈ zeros count ++ digits significand,
          character.isDigit = true := by
        intro character member
        rcases List.mem_append.mp member with inZeros | inDigits
        · exact isDigit_of_mem_zeros inZeros
        · exact isDigit_of_mem_digits inDigits
      have nonempty : zeros 1 ≠ [] := List.cons_ne_nil _ _
      have positional := Positional.fraction nonempty beforeDigits afterDigits
      rwa [← value, length] at positional

/-- The positional text of a decimal denotes the magnitude of the decimal. -/
theorem exists_positional (decimal : Scientific) :
    ∃ significand exponent, Positional (decimal.positionalText []) significand exponent ∧
      magnitude significand exponent = magnitude decimal.significand decimal.exponent := by
  obtain ⟨significand, exponent⟩ := decimal
  cases exponent with
  | ofNat after =>
      refine ⟨_, .ofNat 0, positional_ofNat significand after, ?_⟩
      rw [magnitude_ofNat, magnitude_ofNat, power_zero, Nat.mul_one]
  | negSucc before => exact ⟨_, _, positional_negSucc significand before, rfl⟩

end Scientific

/-- The text of a finite double is that of its magnitude, behind a minus sign if it is negative. -/
theorem Layout.text_signed (layout : Layout) (negative : Bool) {magnitude : Magnitude}
    (finite : magnitude.isFinite = true) :
    layout.text (.signed negative magnitude) =
      if negative then '-' :: layout.magnitudeText magnitude else layout.magnitudeText magnitude :=
  if_pos finite

end Decimal

end PrefixArith
