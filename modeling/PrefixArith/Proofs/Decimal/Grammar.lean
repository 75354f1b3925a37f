import Mathlib.Data.List.TakeWhile
import PrefixArith.Proofs.Binary64.Nearest
import PrefixArith.Proofs.Decimal.Magnitude

/-!
# The grammar of decimal numerals

A decimal numeral is put together from a sign, a mantissa and an exponent part, each of which may be
spelled in several ways. Exactly what is put together in this way is read as a numeral, and as the
one that the parts spell. It denotes the magnitude nearest to its exact value.
-/

namespace PrefixArith

namespace Decimal

/-- A word of ASCII digits, which may be empty. -/
def IsWord (text : List Char) : Prop :=
  ∀ character ∈ text, character.isDigit = true

/-- A sign or none; `true` stands for a minus. -/
inductive Sign : List Char → Bool → Prop where
  | none : Sign [] false
  | plus : Sign ['+'] false
  | minus : Sign ['-'] true

/-- Digits with at most one point, and the digits before and after it. -/
inductive Mantissa : List Char → List Char → List Char → Prop where
  | whole {digits : List Char} (word : IsWord digits) : Mantissa digits digits []
  | pointed {before after : List Char} (beforeWord : IsWord before) (afterWord : IsWord after) :
      Mantissa (before ++ '.' :: after) before after

/-- An integer with an optional sign and at least one digit. -/
inductive SignedInteger : List Char → Int → Prop where
  | of {sign digits : List Char} {negative : Bool} (signed : Sign sign negative)
      (nonempty : digits ≠ []) (word : IsWord digits) :
      SignedInteger (sign ++ digits)
        (if negative then -(ofDigits digits : Int) else ofDigits digits)

/-- An exponent part or none. -/
inductive Exponent : List Char → Int → Prop where
  | none : Exponent [] 0
  | marked {mark : Char} {text : List Char} {exponent : Int} (isMark : mark = 'e' ∨ mark = 'E')
      (integer : SignedInteger text exponent) : Exponent (mark :: text) exponent

/--
A text that spells a numeral, with at least one digit before or after the point. Each digit after it
takes one from the exponent.
-/
inductive Spelled : List Char → Numeral → Prop where
  | of {sign mantissa before after tail : List Char} {negative : Bool} {exponent : Int}
      (signed : Sign sign negative) (mantissaText : Mantissa mantissa before after)
      (nonempty : before ++ after ≠ []) (exponentText : Exponent tail exponent) :
      Spelled (sign ++ (mantissa ++ tail))
        ⟨negative, ofDigits (before ++ after), exponent - after.length⟩

/-! ## Parts that stand in front of a rest -/

/-- A rest that goes on with no digit. -/
def EndsWord (rest : List Char) : Prop :=
  ∀ next ∈ rest.head?, next.isDigit = false

theorem IsWord.takeWhile_append {word rest : List Char} (isWord : IsWord word)
    (ends : EndsWord rest) : (word ++ rest).takeWhile Char.isDigit = word := by
  rw [List.takeWhile_append_of_pos isWord]
  cases rest with
  | nil => exact List.append_nil word
  | cons next rest =>
      rw [List.takeWhile_cons_of_neg (by simp [ends next rfl]), List.append_nil]

theorem IsWord.dropWhile_append {word rest : List Char} (isWord : IsWord word)
    (ends : EndsWord rest) : (word ++ rest).dropWhile Char.isDigit = rest := by
  rw [List.dropWhile_append_of_pos isWord]
  cases rest with
  | nil => rfl
  | cons next rest => rw [List.dropWhile_cons_of_neg (by simp [ends next rfl])]

theorem isWord_takeWhile (text : List Char) : IsWord (text.takeWhile Char.isDigit) :=
  List.all_eq_true.mp List.all_takeWhile

/-- A digit is no sign. -/
theorem digit_ne {character : Char} (digit : character.isDigit = true) :
    character ≠ '+' ∧ character ≠ '-' := by
  constructor
  · rintro rfl
    cases digit
  · rintro rfl
    cases digit

/-- A text that goes on with the mark of an exponent, or not at all. -/
def IsTail (tail : List Char) : Prop :=
  ∀ mark ∈ tail.head?, mark = 'e' ∨ mark = 'E'

theorem Exponent.isTail {tail : List Char} {exponent : Int} (spelled : Exponent tail exponent) :
    IsTail tail := by
  cases spelled with
  | none => exact nofun
  | marked isMark integer =>
      intro next starts
      obtain rfl := Option.some.inj starts
      exact isMark

/-- An exponent is not taken for more of the mantissa or for a sign. -/
theorem IsTail.head_ne {tail : List Char} (isTail : IsTail tail) :
    ∀ mark ∈ tail.head?, mark.isDigit = false ∧ mark ≠ '.' ∧ mark ≠ '+' ∧ mark ≠ '-' := by
  intro mark starts
  rcases isTail mark starts with rfl | rfl <;> decide

theorem IsTail.endsWord {tail : List Char} (isTail : IsTail tail) : EndsWord tail :=
  fun mark starts => (isTail.head_ne mark starts).1

/-- A mantissa is made of digits and points. -/
theorem Mantissa.characters {mantissa before after : List Char}
    (spelled : Mantissa mantissa before after) :
    ∀ character ∈ mantissa, character.isDigit = true ∨ character = '.' := by
  intro character member
  cases spelled with
  | whole word => exact .inl (word character member)
  | pointed beforeWord afterWord =>
      rcases List.mem_append.mp member with inBefore | inAfter
      · exact .inl (beforeWord character inBefore)
      · rcases List.mem_cons.mp inAfter with point | inFraction
        · exact .inr point
        · exact .inl (afterWord character inFraction)

/-! ## Reading the parts -/

namespace Numeral

/-- What is taken as a sign is one. -/
theorem sign_takeSign (text : List Char) :
    ∃ sign, Sign sign (takeSign text).1 ∧ text = sign ++ (takeSign text).2 := by
  unfold takeSign
  split
  · exact ⟨['+'], .plus, rfl⟩
  · exact ⟨['-'], .minus, rfl⟩
  · exact ⟨[], .none, rfl⟩

/-- A sign is taken from the front of a text that does not go on with another one. -/
theorem takeSign_append {sign rest : List Char} {negative : Bool} (signed : Sign sign negative)
    (unsigned : ∀ next ∈ rest.head?, next ≠ '+' ∧ next ≠ '-') :
    takeSign (sign ++ rest) = (negative, rest) := by
  cases signed with
  | plus => rfl
  | minus => rfl
  | none =>
      rw [List.nil_append]
      unfold takeSign
      split
      · exact absurd rfl (unsigned '+' rfl).1
      · exact absurd rfl (unsigned '-' rfl).2
      · rfl

theorem takeSign_append_word {sign digits : List Char} {negative : Bool}
    (signed : Sign sign negative) (word : IsWord digits) :
    takeSign (sign ++ digits) = (negative, digits) := by
  apply takeSign_append signed
  intro next starts
  exact digit_ne (word next (List.mem_of_mem_head? starts))

theorem integer?_eq_some_iff {text : List Char} {value : Int} :
    integer? text = some value ↔ SignedInteger text value := by
  constructor
  · intro read
    obtain ⟨sign, signed, cut⟩ := sign_takeSign text
    unfold integer? at read
    dsimp only at read
    generalize takeSign text = taken at read signed cut
    obtain ⟨negative, digits⟩ := taken
    dsimp only at read signed cut
    split at read
    · cases read
    · next proper =>
        simp only [Bool.or_eq_true, List.isEmpty_iff, Bool.not_eq_true', not_or] at proper
        have word : IsWord digits := List.all_eq_true.mp (by simpa using proper.2)
        have integer := SignedInteger.of signed proper.1 word
        rw [← cut] at integer
        split at read
        · next minus =>
            cases read
            rwa [if_pos minus] at integer
        · next plus =>
            cases read
            rwa [if_neg plus] at integer
  · intro integer
    cases integer with
    | @of sign digits negative signed nonempty word =>
        have all : digits.all Char.isDigit = true := List.all_eq_true.mpr word
        have some : digits.isEmpty = false := by simpa using nonempty
        rw [integer?, takeSign_append_word signed word]
        cases negative <;> simp [all, some]

theorem exponent?_eq_some_iff {text : List Char} {exponent : Int} :
    exponent? text = some exponent ↔ Exponent text exponent := by
  constructor
  · intro read
    cases text with
    | nil =>
        cases read
        exact .none
    | cons mark text =>
        rw [exponent?] at read
        split at read
        · next isMark =>
            simp only [Bool.or_eq_true, decide_eq_true_eq] at isMark
            exact .marked isMark (integer?_eq_some_iff.mp read)
        · cases read
  · intro spelled
    cases spelled with
    | none => rfl
    | marked isMark integer =>
        rw [exponent?, if_pos (by simpa using isMark)]
        exact integer?_eq_some_iff.mpr integer

theorem takeSign_append_mantissa {sign mantissa before after tail : List Char} {negative : Bool}
    (signed : Sign sign negative) (spelled : Mantissa mantissa before after)
    (isTail : IsTail tail) :
    takeSign (sign ++ (mantissa ++ tail)) = (negative, mantissa ++ tail) := by
  apply takeSign_append signed
  intro next starts
  cases mantissa with
  | nil => exact (isTail.head_ne next starts).2.2
  | cons first rest =>
      obtain rfl : first = next := Option.some.inj starts
      rcases spelled.characters first List.mem_cons_self with digit | rfl
      · exact digit_ne digit
      · decide

theorem takeFraction_of_ne {text : List Char} (noPoint : ∀ next ∈ text.head?, next ≠ '.') :
    takeFraction text = ([], text) := by
  unfold takeFraction
  split
  · exact absurd rfl (noPoint '.' rfl)
  · rfl

/-- A mantissa is split at its point, and what goes on after it is left. -/
theorem split_mantissa {mantissa before after tail : List Char}
    (spelled : Mantissa mantissa before after) (isTail : IsTail tail) :
    (mantissa ++ tail).takeWhile Char.isDigit = before ∧
      takeFraction ((mantissa ++ tail).dropWhile Char.isDigit) = (after, tail) := by
  have ends := isTail.endsWord
  cases spelled with
  | whole word =>
      rw [word.takeWhile_append ends, word.dropWhile_append ends]
      exact ⟨rfl, takeFraction_of_ne fun next starts => (isTail.head_ne next starts).2.1⟩
  | pointed beforeWord afterWord =>
      have point : EndsWord ('.' :: (after ++ tail)) := by
        intro next starts
        obtain rfl : '.' = next := Option.some.inj starts
        rfl
      rw [List.append_assoc, List.cons_append, beforeWord.takeWhile_append point,
        beforeWord.dropWhile_append point, takeFraction, afterWord.takeWhile_append ends,
        afterWord.dropWhile_append ends]
      exact ⟨rfl, rfl⟩

/-- What is split at a point is a mantissa and what goes on after it. -/
theorem exists_mantissa (text : List Char) :
    ∃ mantissa, text = mantissa ++ (takeFraction (text.dropWhile Char.isDigit)).2 ∧
      Mantissa mantissa (text.takeWhile Char.isDigit)
        (takeFraction (text.dropWhile Char.isDigit)).1 := by
  have cut := List.takeWhile_append_dropWhile (p := Char.isDigit) (l := text)
  have word := isWord_takeWhile text
  generalize text.takeWhile Char.isDigit = whole at cut word ⊢
  unfold takeFraction
  split
  · next after pointed =>
      refine ⟨_, ?_, .pointed word (isWord_takeWhile after)⟩
      dsimp only
      rw [← cut, pointed, List.append_assoc, List.cons_append, List.takeWhile_append_dropWhile]
  · exact ⟨whole, cut.symm, .whole word⟩

/-- A text is read by its parts: there must be a digit, and what is left must be an exponent. -/
theorem read?_append {sign mantissa before after tail : List Char} {negative : Bool}
    (signed : Sign sign negative) (mantissaText : Mantissa mantissa before after)
    (isTail : IsTail tail) :
    read? (sign ++ (mantissa ++ tail)) =
      if before ++ after = [] then none
      else (exponent? tail).map fun exponent =>
        ⟨negative, ofDigits (before ++ after), exponent - after.length⟩ := by
  obtain ⟨whole, fraction⟩ := split_mantissa mantissaText isTail
  have empty : (before.isEmpty && after.isEmpty) = true ↔ before ++ after = [] := by
    rw [Bool.and_eq_true, List.isEmpty_iff, List.isEmpty_iff, List.append_eq_nil_iff]
  rw [read?, takeSign_append_mantissa signed mantissaText isTail]
  dsimp only
  rw [whole, fraction]
  dsimp only
  simp only [empty]

/-- Exactly the texts that the grammar puts together are read, each as the numeral it spells. -/
theorem read?_eq_some_iff {text : List Char} {numeral : Numeral} :
    read? text = some numeral ↔ Spelled text numeral := by
  constructor
  · intro read
    obtain ⟨sign, signed, cut⟩ := sign_takeSign text
    obtain ⟨mantissa, unsigned, mantissaText⟩ := exists_mantissa (takeSign text).2
    unfold read? at read
    dsimp only at read
    split at read
    · cases read
    · next some =>
        obtain ⟨exponent, exponentText, rfl⟩ := Option.map_eq_some_iff.mp read
        rw [Bool.and_eq_true, List.isEmpty_iff, List.isEmpty_iff, ← List.append_eq_nil_iff] at some
        have spelled := Spelled.of signed mantissaText some
          (exponent?_eq_some_iff.mp exponentText)
        rwa [← unsigned, ← cut] at spelled
  · intro spelled
    cases spelled with
    | of signed mantissaText nonempty exponentText =>
        rw [read?_append signed mantissaText exponentText.isTail, if_neg nonempty,
          exponent?_eq_some_iff.mpr exponentText]
        rfl

end Numeral

/-! ## Values -/

/-- The magnitude of a decimal is the one that is nearest to its exact value. -/
theorem cast_power (exponent : Nat) : ((power exponent : Nat) : ℚ) = 10 ^ exponent := by
  rw [power, Nat.pow_eq, Nat.cast_pow, Nat.cast_ofNat]

theorem magnitude_isNearest (significand : Nat) (exponent : Int) :
    (magnitude significand exponent).IsNearest (significand * 10 ^ exponent) := by
  have one := Magnitude.cast_unitsPerOne_pos.ne'
  cases exponent with
  | ofNat exponent =>
      rw [magnitude_ofNat]
      have rounded := Magnitude.nearest_isNearest
        (significand * power exponent * Magnitude.unitsPerOne) Nat.one_pos
      have exact : ((significand * power exponent * Magnitude.unitsPerOne : Nat) /
          ((1 : Nat) * Magnitude.unitsPerOne) : ℚ) = significand * 10 ^ Int.ofNat exponent := by
        rw [Nat.cast_mul, Nat.cast_one, one_mul, mul_div_cancel_right₀ _ one, Nat.cast_mul,
          cast_power, Int.ofNat_eq_natCast, zpow_natCast]
      rwa [exact] at rounded
  | negSucc exponent =>
      rw [magnitude_negSucc]
      have rounded := Magnitude.nearest_isNearest
        (significand * Magnitude.unitsPerOne) (power_pos (exponent + 1))
      have exact : ((significand * Magnitude.unitsPerOne : Nat) /
          (power (exponent + 1) * Magnitude.unitsPerOne) : ℚ) =
            significand * 10 ^ Int.negSucc exponent := by
        rw [Nat.cast_mul, mul_div_mul_right _ _ one, cast_power, zpow_negSucc, div_eq_mul_inv]
      rwa [exact] at rounded

end Decimal

end PrefixArith
