import PrefixArith.Proofs.Decimal.Layout
import PrefixArith.Proofs.Decimal.Range
import PrefixArith.Proofs.Json.Scaling

/-!
# Numbers that were written as JSON

The text of a finite double has few enough digits for the significand of 64 bits, so none of them is
dropped when it is read. What is left is one scaling of a decimal that rounds to the double: the
result keeps the sign, is finite, and is the same double or one at most two places away from it.
-/

namespace PrefixArith

namespace Json

namespace Number

open Decimal (IsWord EndsWord Written ofDigits power shortest)

/-! ## Parts -/

/-- A rest that goes on with nothing that a number could go on with. -/
def EndsNumber (rest : List Char) : Prop :=
  ∀ next ∈ rest.head?, next.isDigit = false ∧ next ≠ '.' ∧ next ≠ 'e' ∧ next ≠ 'E'

theorem EndsNumber.endsWord {rest : List Char} (ends : EndsNumber rest) : EndsWord rest :=
  fun next starts => (ends next starts).1

theorem endsNumber_cons {next : Char}
    (foreign : next.isDigit = false ∧ next ≠ '.' ∧ next ≠ 'e' ∧ next ≠ 'E') (rest : List Char) :
    EndsNumber (next :: rest) := by
  intro first starts
  obtain rfl := Option.some.inj starts
  exact foreign

/-- A minus sign or none. -/
def minusText (negative : Bool) : List Char :=
  if negative then ['-'] else []

variable {missing : Fault} {word rest : List Char}

theorem takeDigits_append (isWord : IsWord word) (nonempty : word ≠ []) (ends : EndsWord rest) :
    takeDigits missing (word ++ rest) = .ok (word, rest) := by
  cases word with
  | nil => exact absurd rfl nonempty
  | cons digit others =>
      have othersWord : IsWord others := fun character member =>
        isWord character (List.mem_cons_of_mem _ member)
      rw [List.cons_append, takeDigits, if_pos (isWord digit List.mem_cons_self),
        othersWord.takeWhile_append ends, othersWord.dropWhile_append ends]

theorem takeWhole_append (isWord : IsWord word) (nonempty : word ≠ [])
    (leading : word.head? = some '0' → word.length = 1) (ends : EndsWord rest) :
    takeWhole missing (word ++ rest) = .ok (word, rest) := by
  rw [takeWhole, takeDigits_append isWord nonempty ends]
  exact if_neg fun zeros => zeros.2 (leading zeros.1)

theorem takeFraction_append {fraction : Option (List Char)}
    (isFraction : ∀ digits ∈ fraction, IsWord digits ∧ digits ≠ []) (ends : EndsWord rest)
    (noPoint : ∀ next ∈ rest.head?, next ≠ '.') :
    takeFraction missing (Written.fractionText fraction ++ rest) = .ok (fraction, rest) := by
  cases fraction with
  | none =>
      cases rest with
      | nil => rfl
      | cons next rest => exact if_neg (noPoint next rfl)
  | some digits =>
      obtain ⟨isWord, nonempty⟩ := isFraction digits rfl
      rw [Written.fractionText, List.cons_append, takeFraction, if_pos rfl,
        takeDigits_append isWord nonempty ends]
      rfl

theorem takeExponent_append (exponent : Option Int) (ends : EndsNumber rest) :
    takeExponent missing (Written.exponentText exponent ++ rest) = .ok (exponent, rest) := by
  cases exponent with
  | none =>
      cases rest with
      | nil => rfl
      | cons next rest =>
          have foreign := (ends next rfl).2.2
          exact if_neg (not_or.mpr foreign)
  | some exponent =>
      have taken : takeDigits missing (Decimal.digits exponent.natAbs ++ rest) =
          .ok (Decimal.digits exponent.natAbs, rest) :=
        takeDigits_append (Decimal.isWord_digits _) (Decimal.Scientific.digits_ne_nil _)
          ends.endsWord
      rw [Written.exponentText, List.cons_append, List.cons_append, takeExponent,
        if_pos (.inl rfl)]
      rcases lt_or_ge exponent 0 with negative | positive
      · rw [if_pos negative]
        simp only [Decimal.Numeral.takeSign, taken, Except.map, Decimal.ofDigits_digits, if_true]
        rw [Int.ofNat_natAbs_of_nonpos negative.le, Int.neg_neg]
      · rw [if_neg (Int.not_lt.mpr positive)]
        simp only [Decimal.Numeral.takeSign, taken, Except.map, Decimal.ofDigits_digits,
          Bool.false_eq_true, if_false]
        rw [Int.natAbs_of_nonneg positive]

theorem takeMinus_append (negative : Bool) (isWord : IsWord word) (nonempty : word ≠ []) :
    takeMinus (minusText negative ++ (word ++ rest)) = (negative, word ++ rest) := by
  cases negative with
  | true => rfl
  | false =>
      cases word with
      | nil => exact absurd rfl nonempty
      | cons digit others =>
          exact if_neg (Decimal.digit_ne (isWord digit List.mem_cons_self)).2

variable {written : Written}

/-- The parts of a number are taken from a text that is put together from them. -/
theorem takeParts_tail (proper : written.IsProper) (negative : Bool) {tail : List Char}
    {exponent : Option Int} (apart : ∀ next ∈ tail.head?, next.isDigit = false ∧ next ≠ '.')
    (taken : takeExponent missing tail = .ok (exponent, rest)) :
    takeParts missing
        (minusText negative ++ (written.whole ++ (Written.fractionText written.fraction ++ tail))) =
      .ok (⟨negative, written.whole, written.fraction, exponent⟩, rest) := by
  have afterWhole : EndsWord (Written.fractionText written.fraction ++ tail) := by
    intro next starts
    cases fraction : written.fraction with
    | none =>
        rw [fraction] at starts
        exact (apart next starts).1
    | some digits =>
        rw [fraction] at starts
        obtain rfl := Option.some.inj starts
        rfl
  rw [takeParts, takeMinus_append negative proper.word proper.nonempty]
  simp only [takeWhole_append proper.word proper.nonempty proper.leading afterWhole,
    takeFraction_append proper.fraction (fun next starts => (apart next starts).1)
      (fun next starts => (apart next starts).2), taken]

/-- The parts of a number that is written with proper parts are these, and its sign. -/
theorem takeParts_append (proper : written.IsProper) (negative : Bool) (ends : EndsNumber rest) :
    takeParts missing (minusText negative ++ (written.text ++ rest)) =
      .ok (⟨negative, written.whole, written.fraction, written.exponent⟩, rest) := by
  have apart : ∀ next ∈ (Written.exponentText written.exponent ++ rest).head?,
      next.isDigit = false ∧ next ≠ '.' := by
    intro next starts
    cases exponent : written.exponent with
    | none =>
        rw [exponent] at starts
        exact ⟨(ends next starts).1, (ends next starts).2.1⟩
    | some exponent =>
        rw [exponent] at starts
        obtain rfl := Option.some.inj starts
        decide
  rw [Written.text, List.append_assoc, List.append_assoc]
  exact takeParts_tail proper negative apart (takeExponent_append written.exponent ends)

/-! ## Values of the parts -/

theorem ofDigits_concat (word : List Char) (digit : Char) :
    ofDigits (word ++ [digit]) = 10 * ofDigits word + Decimal.digitValue digit := by
  rw [Decimal.ofDigits, Decimal.ofDigits, List.map_append, List.map_singleton, Text.ofDigits,
    Text.ofDigits, List.foldl_concat, Nat.mul_comm]

theorem ofDigits_le_append (front rest : List Char) : ofDigits front ≤ ofDigits (front ++ rest) := by
  induction rest using List.reverseRecOn with
  | nil => rw [List.append_nil]
  | append_singleton rest digit ih =>
      rw [← List.append_assoc, ofDigits_concat]
      omega

/-- Digits whose number fits in 64 bits are all gathered. -/
theorem gather_append (front word : List Char) (fits : ofDigits (front ++ word) < UInt64.size) :
    gather (ofDigits front) word = (ofDigits (front ++ word), 0) := by
  induction word generalizing front with
  | nil => rw [List.append_nil, gather]
  | cons digit others ih =>
      have split : front ++ digit :: others = (front ++ [digit]) ++ others := by simp
      rw [split] at fits ⊢
      have next := ofDigits_concat front digit
      have small := (ofDigits_le_append (front ++ [digit]) others).trans_lt fits
      rw [gather, ← next, if_pos small]
      exact ih _ fits

/-- Parts with a fraction or an exponent and few digits are one scaling of all the digits. -/
theorem ofParts_written (negative : Bool) (fits : written.significand < UInt64.size)
    (marked : written.fraction.isSome = true ∨ written.exponent.isSome = true) :
    ofParts ⟨negative, written.whole, written.fraction, written.exponent⟩ =
      (scale written.significand written.scale).map fun magnitude =>
        .real (.signed negative magnitude) := by
  obtain ⟨whole, fraction, exponent⟩ := written
  have wholeFits : ofDigits ([] ++ whole) < UInt64.size :=
    (ofDigits_le_append whole _).trans_lt fits
  have gathered : gather 0 whole = (ofDigits whole, 0) := gather_append [] whole wholeFits
  simp only [ofParts, gathered]
  cases fraction with
  | some digits =>
      have all : gather (ofDigits whole) digits = (ofDigits (whole ++ digits), 0) :=
        gather_append whole digits fits
      simp only [all, Written.significand, Written.scale, Option.getD_some, Nat.sub_zero]
      congr 2
      omega
  | none =>
      cases exponent with
      | some exponent =>
          simp only [Written.significand, Written.scale, Option.getD_some, Option.getD_none,
            List.append_nil, List.length_nil]
          congr 2
          omega
      | none => simp at marked

/-- A text with proper parts is read by one scaling of its digits. -/
theorem read_written (proper : written.IsProper) (negative : Bool)
    (fits : written.significand < UInt64.size)
    (marked : written.fraction.isSome = true ∨ written.exponent.isSome = true)
    (ends : EndsNumber rest) :
    read (minusText negative ++ (written.text ++ rest)) =
      (scale written.significand written.scale).map fun magnitude =>
        (.real (.signed negative magnitude), rest) := by
  rw [read, takeParts_append proper negative ends]
  dsimp only
  rw [ofParts_written negative fits marked]
  cases scale written.significand written.scale <;> rfl

/-! ## Texts of doubles -/

/-- The JSON text of a finite magnitude has proper parts in the range of doubles. -/
structure IsText (magnitude : Magnitude) (written : Written) : Prop where
  text : numberLayout.magnitudeText magnitude = written.text
  proper : written.IsProper
  marked : written.fraction.isSome = true ∨ written.exponent.isSome = true
  nearest : magnitude.IsNearest (written.significand * 10 ^ written.scale)
  fits : written.significand < UInt64.size
  low : -324 ≤ written.scale
  high : written.scale ≤ 308
  last : magnitude.place + 2 < Magnitude.top ∨
    (scale written.significand written.scale).toOption.any Magnitude.isFinite = true

variable {magnitude : Magnitude}

/-- The shortest decimals of finite magnitudes are in the range of doubles. -/
theorem shortest_bounds (tie : Decimal.Tie) (finite : magnitude.isFinite = true) :
    (shortest tie magnitude).significand < 40 * 2 ^ 53 ∧
      -324 ≤ (shortest tie magnitude).exponent ∧ (shortest tie magnitude).exponent ≤ 308 := by
  by_cases zero : magnitude.place = 0
  · rw [shortest, if_pos zero]
    decide
  · exact ⟨Decimal.significand_lt tie zero, Decimal.le_exponent tie zero,
      Decimal.exponent_le tie zero finite⟩

/-- A positional text has at most 17 digits, with the zeros that are added. -/
theorem mul_power_lt {decimal : Decimal.Scientific} {added : Nat}
    (positional : numberLayout.positional decimal.leading = true)
    (bound : (added : Int) ≤ decimal.exponent + 1) :
    decimal.significand * power added < power 17 := by
  have first : decimal.leading ≤ 15 := by
    simp only [numberLayout, Bool.and_eq_true, decide_eq_true_eq] at positional
    exact positional.2
  have some : 0 < (Decimal.digits decimal.significand).length :=
    List.length_pos_iff.mpr (Decimal.Scientific.digits_ne_nil _)
  have below := (Decimal.length_digits_le_iff some).mp (Nat.le_refl _)
  rw [Decimal.Scientific.leading] at first
  calc
    decimal.significand * power added
        < power (Decimal.digits decimal.significand).length * power added :=
      Nat.mul_lt_mul_of_pos_right below (Decimal.power_pos added)
    _ = power ((Decimal.digits decimal.significand).length + added) :=
      (Decimal.power_add ..).symm
    _ ≤ power 17 := Decimal.power_le_power (by omega)

/-- The last doubles are written with an exponent, and what they are written as scales to a double. -/
theorem last_texts : ∀ back < 3, 0 < back →
    let decimal := shortest .even (.ofPlace (Magnitude.top - back))
    numberLayout.positional decimal.leading = false ∧
      (scale decimal.significand decimal.exponent).toOption.any Magnitude.isFinite = true := by
  decide +kernel

theorem exists_isText (finite : magnitude.isFinite = true) :
    ∃ written, IsText magnitude written := by
  obtain ⟨written, added, text, proper, denotes, added_eq, marked⟩ :=
    numberLayout.exists_written (.inr rfl) magnitude
  obtain ⟨few, low, high⟩ := shortest_bounds numberLayout.tie finite
  have exact : added = 0 → written.significand =
      (shortest numberLayout.tie magnitude).significand ∧
        written.scale = (shortest numberLayout.tie magnitude).exponent := by
    rintro rfl
    refine ⟨?_, ?_⟩
    · rw [denotes.significand, Decimal.power_zero, Nat.mul_one]
    · rw [denotes.scale, Nat.cast_zero, sub_zero]
  refine ⟨written, text, proper, marked (List.cons_ne_nil _ _), ?_, ?_, ?_, ?_, ?_⟩
  · rw [denotes.value]
    exact Decimal.shortest_isNearest _ _
  · rcases added_eq with none | ⟨positional, bound⟩
    · rw [(exact none).1]
      exact few.trans (by decide)
    · rw [denotes.significand]
      exact (mul_power_lt positional bound).trans (by decide)
  · rw [denotes.scale]
    rcases added_eq with none | ⟨-, bound⟩ <;> omega
  · rw [denotes.scale]
    omega
  · by_cases early : magnitude.place + 2 < Magnitude.top
    · exact .inl early
    · right
      have inside : magnitude.place < Magnitude.top := of_decide_eq_true finite
      obtain ⟨negated, scaled⟩ :=
        last_texts (Magnitude.top - magnitude.place) (by omega) (by omega)
      have same : Magnitude.ofPlace (Magnitude.top - (Magnitude.top - magnitude.place)) =
          magnitude := by
        apply Magnitude.eq_of_place_eq
        rw [Nat.sub_sub_self inside.le, Magnitude.place_ofPlace inside.le]
      rw [same] at negated scaled
      -- The text has an exponent, so its digits are those of the shortest decimal.
      have none : added = 0 := by
        rcases added_eq with none | ⟨positional, -⟩
        · exact none
        · exact absurd positional (Bool.eq_false_iff.mp negated)
      rw [(exact none).1, (exact none).2]
      exact scaled

/-- The text of a finite double has its sign in front. -/
theorem text_signed (negative : Bool) (finite : magnitude.isFinite = true) :
    numberLayout.text (.signed negative magnitude) =
      minusText negative ++ numberLayout.magnitudeText magnitude := by
  rw [numberLayout.text_signed negative finite]
  cases negative <;> rfl

/--
A double is read back as another one: with the same sign, finite and two places away at most. The two
are the same if the digits in the text, without the point, are at most `2 ^ 53` and the power of
ten that scales them is at most `10 ^ 22` either way.
-/
inductive IsReread : Binary64 → Binary64 → Prop where
  | of {negative : Bool} {magnitude reread : Magnitude} {numeral : Decimal.Numeral}
      (spelled : Decimal.Spelled (numberLayout.text (.signed negative magnitude)) numeral)
      (finite : reread.isFinite = true)
      (close : magnitude.IsWithin 2 reread)
      (exact : numeral.significand ≤ 2 ^ 53 → numeral.exponent.natAbs ≤ 22 → reread = magnitude) :
      IsReread (.signed negative magnitude) (.signed negative reread)

namespace IsText

variable (isText : IsText magnitude written)

include isText

/-- The decimal in the text is scaled to a finite double that is near to the one it is written for. -/
theorem exists_scale (finite : magnitude.isFinite = true) :
    ∃ reread : Magnitude, scale written.significand written.scale = .ok reread ∧
      reread.isFinite = true ∧ magnitude.IsWithin 2 reread := by
  have nearest := isText.nearest
  rcases Nat.eq_zero_or_pos written.significand with zero | positive
  · rw [zero, Nat.cast_zero, zero_mul] at nearest
    obtain rfl := nearest.eq_zero
    rw [zero]
    exact ⟨.zero, scale_zero _, finite, .refl _ _⟩
  · refine exists_scale_eq positive ?_ isText.low isText.high nearest isText.last
    have large : (Magnitude.ofNat UInt64.size).isFinite = true := by decide +kernel
    refine (Magnitude.ofNat_isNearest _).isFinite_of_le (Magnitude.ofNat_isNearest _) ?_ large
    exact_mod_cast isText.fits.le

/-- The text is read, up to its end, as a double that the relation allows. -/
theorem exists_read (finite : magnitude.isFinite = true) (negative : Bool) :
    ∃ reread, IsReread (.signed negative magnitude) reread ∧ ∀ {rest}, EndsNumber rest →
      read (numberLayout.text (.signed negative magnitude) ++ rest) = .ok (.real reread, rest) := by
  obtain ⟨reread, scaled, rereadFinite, close⟩ := isText.exists_scale finite
  have text := text_signed negative finite
  rw [isText.text] at text
  have signed : Decimal.Sign (minusText negative) negative := by
    cases negative
    · exact .none
    · exact .minus
  have spelled := isText.proper.spelled signed
  rw [← text] at spelled
  refine ⟨.signed negative reread, .of spelled rereadFinite close ?_, ?_⟩
  · intro small near
    have exact := scale_exact finite small near isText.nearest
    rw [scaled] at exact
    exact Except.ok.inj exact
  · intro rest ends
    rw [text, List.append_assoc,
      read_written isText.proper negative isText.fits isText.marked ends, scaled]
    rfl

end IsText

/-- The text of a finite double is read, up to its end, as a double that the relation allows. -/
theorem exists_read_text {number : Binary64} (finite : number.isFinite = true) :
    ∃ reread, IsReread number reread ∧ ∀ {rest}, EndsNumber rest →
      read (numberLayout.text number ++ rest) = .ok (.real reread, rest) := by
  cases number with
  | nan => cases finite
  | signed negative magnitude =>
      obtain ⟨written, isText⟩ := exists_isText finite
      exact isText.exists_read finite negative

end Number

end Json

end PrefixArith
