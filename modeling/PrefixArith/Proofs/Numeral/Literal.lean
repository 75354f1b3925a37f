import Mathlib.Data.List.Forall2
import PrefixArith.Numeral

/-!
# Literals with a base marker

A literal is a zero, the marker of a base and digits of that base, with letters in either case.
Exactly the literals are read as integers with a marker, each as the magnitude of its digits.
-/

namespace PrefixArith

namespace Text

/-- A character is the digit of a base with a given value; a letter may be in either case. -/
def IsDigit (base : Nat) (character : Char) (value : Nat) : Prop :=
  value < base ∧ (character = value.digitChar ∨ character = value.digitChar.toUpper)

theorem toNat_digitChar :
    ∀ value < 16, value.digitChar.toNat = if value < 10 then value + 48 else value + 87 := by
  decide

theorem toNat_toUpper_digitChar :
    ∀ value < 16,
      value.digitChar.toUpper.toNat = if value < 10 then value + 48 else value + 55 := by
  decide

theorem alphanumericValue?_digitChar :
    ∀ value < 16, alphanumericValue? value.digitChar = some value ∧
      alphanumericValue? value.digitChar.toUpper = some value := by
  decide

/-- A character has at most one value as a digit. -/
theorem digitChar_of_alphanumericValue? {character : Char} {value : Nat} (small : value < 16)
    (is : alphanumericValue? character = some value) :
    character = value.digitChar ∨ character = value.digitChar.toUpper := by
  have lower := toNat_digitChar value small
  have upper := toNat_toUpper_digitChar value small
  rw [← Char.toNat_inj, ← Char.toNat_inj, lower, upper]
  unfold alphanumericValue? at is
  simp only [Char.le_def, UInt32.le_iff_toNat_le, Char.reduceVal, UInt32.reduceToNat,
    Char.toNat_val, Char.reduceToNat] at is
  split_ifs at is
  all_goals
    have counted := Option.some.inj is
    split_ifs <;> omega

theorem digit?_eq_some_iff {base : Nat} (small : base ≤ 16) {character : Char} {value : Nat} :
    digit? base character = some value ↔ IsDigit base character value := by
  rw [digit?, Option.filter_eq_some_iff, decide_eq_true_eq]
  constructor
  · rintro ⟨is, below⟩
    exact ⟨below, digitChar_of_alphanumericValue? (Nat.lt_of_lt_of_le below small) is⟩
  · rintro ⟨below, cases⟩
    have is := alphanumericValue?_digitChar value (Nat.lt_of_lt_of_le below small)
    rcases cases with rfl | rfl
    · exact ⟨is.1, below⟩
    · exact ⟨is.2, below⟩

/-- The values of a row of digits. -/
theorem mapM_digit?_eq_some_iff {base : Nat} (small : base ≤ 16) {digits : List Char}
    {values : List Nat} :
    digits.mapM (digit? base) = some values ↔ List.Forall₂ (IsDigit base) digits values := by
  induction digits generalizing values with
  | nil => simp [eq_comm]
  | cons first rest ih =>
      simp only [List.mapM_cons, Option.bind_eq_bind, Option.bind_eq_some_iff, Option.pure_def,
        Option.some.injEq, digit?_eq_some_iff small, ih]
      constructor
      · rintro ⟨value, isDigit, others, areDigits, rfl⟩
        exact .cons isDigit areDigits
      · intro spelled
        cases spelled with
        | cons isDigit areDigits => exact ⟨_, isDigit, _, areDigits, rfl⟩

end Text

namespace Numeral

/-- A literal with a base marker and the values of its digits. -/
inductive Literal (base : Nat) : List Char → List Nat → Prop where
  | of {marker : Char} {digits : List Char} {values : List Nat}
      (marked : base? marker = some base) (nonempty : digits ≠ [])
      (spelled : List.Forall₂ (Text.IsDigit base) digits values) :
      Literal base ('0' :: marker :: digits) values

/-- The bases that have a marker. -/
theorem base_of_base? {marker : Char} {base : Nat} (marked : base? marker = some base) :
    base = 2 ∨ base = 8 ∨ base = 16 := by
  unfold base? at marked
  split at marked <;> grind

variable {base : Nat} {word : List Char} {values : List Nat}

theorem Literal.base_cases (literal : Literal base word values) :
    base = 2 ∨ base = 8 ∨ base = 16 := by
  cases literal with
  | of marked nonempty spelled => exact base_of_base? marked

theorem Literal.base_le (literal : Literal base word values) : base ≤ 16 := by
  rcases literal.base_cases with rfl | rfl | rfl <;> decide

theorem Literal.value_lt (literal : Literal base word values) :
    ∀ value ∈ values, value < base := by
  cases literal with
  | of marked nonempty spelled =>
      clear nonempty
      induction spelled with
      | nil => exact List.forall_mem_nil _
      | cons isDigit others ih => exact List.forall_mem_cons.mpr ⟨isDigit.1, ih⟩

/-- Exactly the literals are read as integers with a marker. -/
theorem marked?_eq_some_iff {magnitude : Magnitude} :
    marked? word = some magnitude ↔
      ∃ base values, Literal base word values ∧ integerMagnitude base values = magnitude := by
  constructor
  · intro read
    unfold marked? at read
    split at read
    · next marker digits =>
        obtain ⟨base, marked, read⟩ := Option.bind_eq_some_iff.mp read
        split at read
        · cases read
        · next some =>
            obtain ⟨values, spelled, is⟩ := Option.bind_eq_some_iff.mp read
            have small : base ≤ 16 := by
              rcases base_of_base? marked with rfl | rfl | rfl <;> decide
            exact ⟨base, values, .of marked (by simpa using some)
              ((Text.mapM_digit?_eq_some_iff small).mp spelled), Option.some.inj is⟩
    · cases read
  · rintro ⟨base, values, literal, rfl⟩
    have small := literal.base_le
    cases literal with
    | @of marker digits values marked nonempty spelled =>
        have some : ¬ digits.isEmpty = true := by simpa using nonempty
        rw [marked?, marked]
        simp only [Option.bind_eq_bind, Option.bind_some]
        rw [if_neg some, (Text.mapM_digit?_eq_some_iff small).mpr spelled]
        rfl

theorem marked?_eq_none_iff :
    marked? word = none ↔ ∀ base values, ¬ Literal base word values := by
  rw [Option.eq_none_iff_forall_ne_some]
  constructor
  · intro unread base values literal
    exact unread _ (marked?_eq_some_iff.mpr ⟨base, values, literal, rfl⟩)
  · intro noLiteral magnitude read
    obtain ⟨base, values, literal, -⟩ := marked?_eq_some_iff.mp read
    exact noLiteral base values literal

/-- A literal is read as the magnitude of its digits, unless that is infinite. -/
theorem Literal.read?_eq (literal : Literal base word values) :
    read? word =
      if (integerMagnitude base values).isFinite = true then
        some (.signed false (integerMagnitude base values))
      else none := by
  rw [read?, value?, marked?_eq_some_iff.mpr ⟨base, values, literal, rfl⟩]
  exact Option.filter_some

end Numeral

end PrefixArith
