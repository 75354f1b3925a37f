import Mathlib.Data.Nat.Digits.Defs
import PrefixArith.Json.Rejection
import PrefixArith.Proofs.Decimal.Positional
import PrefixArith.Value.Basic

/-!
# Texts of one line

What is put together from texts without a line feed has none either. Numbers, values and quotations
are such texts, whatever they show, so they never break the line that they stand in.
-/

namespace PrefixArith

namespace Text

/-- A text that does not break a line. -/
def IsLine (text : List Char) : Prop :=
  '\n' ∉ text

instance (text : List Char) : Decidable (IsLine text) :=
  inferInstanceAs (Decidable ('\n' ∉ text))

variable {left right text : List Char}

theorem IsLine.append (isLeft : IsLine left) (isRight : IsLine right) : IsLine (left ++ right) := by
  rw [IsLine, List.mem_append, not_or]
  exact ⟨isLeft, isRight⟩

theorem IsLine.toList_append {start rest : String} (isStart : IsLine start.toList)
    (isRest : IsLine rest.toList) : IsLine (start ++ rest).toList := by
  rw [String.toList_append]
  exact isStart.append isRest

theorem IsLine.cons {character : Char} (other : '\n' ≠ character) (isLine : IsLine text) :
    IsLine (character :: text) := by
  rw [IsLine, List.mem_cons, not_or]
  exact ⟨other, isLine⟩

theorem IsLine.of_subset (isLine : IsLine right) (subset : left ⊆ right) : IsLine left :=
  fun member => isLine (subset member)

theorem IsLine.intercalate {separator : List Char} (isSeparator : IsLine separator)
    {texts : List (List Char)} (each : ∀ text ∈ texts, IsLine text) :
    IsLine (separator.intercalate texts) := by
  induction texts with
  | nil => exact List.not_mem_nil
  | cons first rest ih =>
      obtain ⟨isFirst, others⟩ := List.forall_mem_cons.mp each
      cases rest with
      | nil => rwa [List.intercalate_singleton]
      | cons second rest =>
          rw [List.intercalate_cons_cons]
          exact (isFirst.append isSeparator).append (ih others)

/-! ## Numbers -/

theorem isLine_toDigits {base : Nat} (large : 1 < base) (value : Nat) :
    IsLine (Nat.toDigits base value) := by
  induction value using Nat.strongRecOn with
  | ind value ih =>
      have digit (number : Nat) : IsLine [number.digitChar] := by
        rw [IsLine, List.mem_singleton]
        exact (Nat.digitChar_ne '\n' rfl).symm
      rw [Nat.toDigits_eq_if large]
      split
      · exact digit value
      · next more =>
          have positive : 0 < value := by omega
          exact (ih (value / base) (Nat.div_lt_self positive large)).append (digit _)

theorem isLine_natText (value : Nat) : IsLine (toString value).toList := by
  rw [Nat.toString_eq_ofList_toDigits, String.toList_ofList]
  exact isLine_toDigits (by decide) value

theorem toList_negSucc (value : Nat) :
    (toString (Int.negSucc value)).toList = '-' :: (toString (value + 1)).toList := by
  change ("-" ++ toString (value + 1)).toList = _
  rw [String.toList_append]
  rfl

theorem isLine_intText (value : Int) : IsLine (toString value).toList := by
  cases value with
  | ofNat value => exact isLine_natText value
  | negSucc value =>
      rw [toList_negSucc]
      exact (isLine_natText (value + 1)).cons (by decide)

/-! ## Quotations -/

theorem isLine_quoteCharacter (character : Char) : IsLine (quoteCharacter character) := by
  by_cases feed : character = '\n'
  · subst feed
    decide
  · unfold quoteCharacter
    split
    all_goals try decide
    split
    · rw [IsLine, List.mem_singleton]
      exact Ne.symm feed
    · exact ((show IsLine ['\\', 'u', '\x7b'] by decide).append
        (isLine_toDigits (by decide) _)).append (by decide)

/-- A quotation is one line also where what it quotes is not. -/
theorem isLine_quote (text : List Char) : IsLine (quote text) := by
  have inside : IsLine (text.flatMap quoteCharacter) := by
    intro member
    obtain ⟨character, -, inCharacter⟩ := List.mem_flatMap.mp member
    exact isLine_quoteCharacter character inCharacter
  exact (inside.append (by decide)).cons (by decide)

end Text

namespace Decimal

open Text (IsLine)

theorem isLine_digits (value : Nat) : IsLine (digits value) :=
  Text.isLine_toDigits (by decide) value

theorem isLine_zeros (count : Nat) : IsLine (zeros count) := by
  intro member
  cases List.eq_of_mem_replicate member

namespace Scientific

theorem isLine_positionalText {wholeMark : List Char} (mark : IsLine wholeMark)
    (decimal : Scientific) : IsLine (decimal.positionalText wholeMark) := by
  have word := isLine_digits decimal.significand
  unfold positionalText
  split
  · exact (word.append (isLine_zeros _)).append mark
  · dsimp only
    split
    · exact (word.of_subset (List.take_subset _ _)).append
        ((word.of_subset (List.drop_subset _ _)).cons (by decide))
    · exact (((isLine_zeros _).append word).cons (by decide)).cons (by decide)

theorem isLine_exponentText (decimal : Scientific) : IsLine decimal.exponentText := by
  have word := isLine_digits decimal.significand
  have exponent := isLine_digits decimal.leading.natAbs
  have sign : '\n' ≠ if decimal.leading < 0 then '-' else '+' := by split <;> decide
  have mark : IsLine ('e' :: (if decimal.leading < 0 then '-' else '+') ::
      digits decimal.leading.natAbs) :=
    (exponent.cons sign).cons (by decide)
  unfold exponentText
  dsimp only
  split
  · next first second rest taken =>
      rw [taken] at word
      have pointed : IsLine (first :: '.' :: second :: rest) := by
        simpa [IsLine] using word
      exact pointed.append mark
  · exact word.append mark

end Scientific

namespace Layout

/-- A layout whose fixed parts are of one line each. -/
structure IsLine (layout : Layout) : Prop where
  wholeMark : Text.IsLine layout.wholeMark
  nan : Text.IsLine layout.nan
  infinity : Text.IsLine layout.infinity
  negativeInfinity : Text.IsLine layout.negativeInfinity

theorem IsLine.magnitudeText {layout : Layout} (isLine : layout.IsLine) (magnitude : Magnitude) :
    Text.IsLine (layout.magnitudeText magnitude) := by
  unfold Layout.magnitudeText
  dsimp only
  split
  · exact Scientific.isLine_positionalText isLine.wholeMark _
  · exact Scientific.isLine_exponentText _

theorem IsLine.text {layout : Layout} (isLine : layout.IsLine) (value : Binary64) :
    Text.IsLine (layout.text value) := by
  cases value with
  | nan => exact isLine.nan
  | signed negative magnitude =>
      have magnitudeText := isLine.magnitudeText magnitude
      unfold Layout.text
      dsimp only
      split
      · split
        · exact magnitudeText.cons (by decide)
        · exact magnitudeText
      · split
        · exact isLine.negativeInfinity
        · exact isLine.infinity

end Layout

end Decimal

theorem Numeral.plain_isLine : Numeral.plain.IsLine where
  wholeMark := by decide
  nan := by decide
  infinity := by decide
  negativeInfinity := by decide

theorem Json.numberLayout_isLine : Json.numberLayout.IsLine where
  wholeMark := by decide
  nan := by decide
  infinity := by decide
  negativeInfinity := by decide

/-! ## Values -/

namespace Value

open Text (IsLine)

variable {layout : Decimal.Layout} {separator : List Char}

mutual

/-- A value is one line in a layout of one line. -/
theorem isLine_layoutText (isLayout : layout.IsLine) (isSeparator : IsLine separator) :
    (value : Value) → IsLine (layoutText layout separator value)
  | .number value => by
      rw [layoutText]
      exact isLayout.text value
  | .list items => by
      rw [layoutText]
      have inside := IsLine.intercalate isSeparator (isLine_layoutTexts isLayout isSeparator items)
      exact (inside.append (by decide)).cons (by decide)

theorem isLine_layoutTexts (isLayout : layout.IsLine) (isSeparator : IsLine separator) :
    (items : List Value) → ∀ text ∈ layoutTexts layout separator items, IsLine text
  | [] => by
      rw [layoutTexts]
      exact List.forall_mem_nil _
  | first :: rest => by
      rw [layoutTexts, List.forall_mem_cons]
      exact ⟨isLine_layoutText isLayout isSeparator first,
        isLine_layoutTexts isLayout isSeparator rest⟩

end

theorem isLine_text (value : Value) : IsLine value.text :=
  isLine_layoutText Numeral.plain_isLine (by decide) value

theorem isLine_json (value : Value) : IsLine value.json :=
  isLine_layoutText Json.numberLayout_isLine (by decide) value

end Value

end PrefixArith
