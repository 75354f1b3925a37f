import PrefixArith.Proofs.Numeral.Accumulation

/-!
# Numbers of literals

A literal of at most 128 bits is read as the double nearest to its value, as its decimal digits and
the literals of the other bases are. A longer one is read as one of the two doubles next to its
value, where none stands for the value after the last double. In both ways of reading, and from one
to the other, greater literals are read as no lesser numbers.
-/

namespace PrefixArith

namespace Numeral

open Magnitude

/-- A word is read as a value: a finite one, or the one after the last where it is not read. -/
inductive ReadsAs (word : List Char) : ℚ → Prop where
  | finite {magnitude : Magnitude} (read : read? word = some (.signed false magnitude)) :
      ReadsAs word magnitude.value
  | overflow (unread : read? word = none) : ReadsAs word (2 ^ 1024)

namespace Literal

variable {base : Nat} {word : List Char} {digits : List Nat}

theorem exists_base (literal : Literal base word digits) : ∃ bits, base = 2 ^ bits := by
  rcases literal.base_cases with rfl | rfl | rfl
  · exact ⟨1, rfl⟩
  · exact ⟨3, rfl⟩
  · exact ⟨4, rfl⟩

/-- A literal is read at a place of the row that adjoins its number. -/
theorem place_spec (literal : Literal base word digits) :
    integerMagnitude base digits = ofPlace (literalPlace base digits) ∧
      Adjoins (literalPlace base digits) (Text.ofDigits base digits * unitsPerOne) := by
  obtain ⟨bits, rfl⟩ := literal.exists_base
  exact ⟨integerMagnitude_eq literal.base_le literal.value_lt,
    adjoins_literalPlace literal.value_lt⟩

end Literal

/-! ## Up to 128 bits -/

/-- The farther one of the two, since the last digit is lost. -/
example :
    read? ("0x100000000000008000000000000000001".toList) =
      some (.signed false (.ofNat (2 ^ 128))) := by
  decide +kernel

/-! ## Order -/

theorem place_le_place_ofPlace {left right : Nat} (ordered : left ≤ right) :
    (ofPlace left).place ≤ (ofPlace right).place :=
  Nat.le_min.mpr ⟨Nat.le_trans (Nat.min_le_left _ _) ordered, Nat.min_le_right _ _⟩

/-- The greater of two literals of one base has no lesser magnitude. -/
theorem Literal.integerMagnitude_mono {base : Nat} {left right : List Char}
    {leftDigits rightDigits : List Nat} (toLeft : Literal base left leftDigits)
    (toRight : Literal base right rightDigits)
    (ordered : Text.ofDigits base leftDigits ≤ Text.ofDigits base rightDigits) :
    (integerMagnitude base leftDigits).place ≤ (integerMagnitude base rightDigits).place := by
  rw [toLeft.place_spec.1, toRight.place_spec.1]
  obtain ⟨bits, rfl⟩ := toLeft.exists_base
  exact place_le_place_ofPlace (literalPlace_mono toLeft.value_lt toRight.value_lt ordered)

/--
Of two literals of one base the greater is not read as a lesser number, whatever their lengths, and
it is not read at all where the other is not.
-/
theorem Literal.read?_mono {base : Nat} {left right : List Char}
    {leftDigits rightDigits : List Nat} (toLeft : Literal base left leftDigits)
    (toRight : Literal base right rightDigits)
    (ordered : Text.ofDigits base leftDigits ≤ Text.ofDigits base rightDigits) :
    (∀ number, read? right = some number → ∃ low high : Magnitude,
      read? left = some (.signed false low) ∧ number = .signed false high ∧
        low.value ≤ high.value) ∧
    (read? left = none → read? right = none) := by
  have places := toLeft.integerMagnitude_mono toRight ordered
  have readLeft := toLeft.read?_eq
  have readRight := toRight.read?_eq
  by_cases finite : (integerMagnitude base rightDigits).isFinite = true
  · have alsoFinite : (integerMagnitude base leftDigits).isFinite = true := by
      rw [isFinite, decide_eq_true_eq] at finite ⊢
      exact Nat.lt_of_le_of_lt places finite
    rw [if_pos alsoFinite] at readLeft
    rw [if_pos finite] at readRight
    constructor
    · intro number is
      rw [readRight, Option.some_inj] at is
      exact ⟨_, _, readLeft, is.symm, value_le_value_iff.mpr places⟩
    · intro unread
      rw [readLeft] at unread
      cases unread
  · rw [if_neg finite] at readRight
    constructor
    · intro number is
      rw [readRight] at is
      cases is
    · exact fun _ => readRight

/-- The order holds between the last literal that is rounded once and the first that is not. -/
theorem Literal.read?_mono_switch :
    ∃ low high : Magnitude,
      read? "0xFFFFFFFFFFFFFFFFFFFFFFFFFFFFFFFF".toList = some (.signed false low) ∧
      read? "0X100000000000000000000000000000000".toList = some (.signed false high) ∧
      low.value ≤ high.value := by
  have last : Literal 16 ('0' :: 'x' :: List.replicate 32 'F') (List.replicate 32 15) :=
    .of rfl (by decide) ((Text.mapM_digit?_eq_some_iff (Nat.le_refl 16)).mp (by decide))
  have first : Literal 16 ('0' :: 'X' :: '1' :: List.replicate 32 '0') (1 :: List.replicate 32 0) :=
    .of rfl (by decide) ((Text.mapM_digit?_eq_some_iff (Nat.le_refl 16)).mp (by decide))
  have isRead : (read? ('0' :: 'X' :: '1' :: List.replicate 32 '0')).isSome = true := by
    decide +kernel
  obtain ⟨number, is⟩ := Option.isSome_iff_exists.mp isRead
  obtain ⟨low, high, readLast, rfl, ordered⟩ :=
    (Literal.read?_mono last first (by decide)).1 number is
  exact ⟨low, high, readLast, is, ordered⟩

end Numeral

end PrefixArith
