import Mathlib.Data.List.Induction
import PrefixArith.Proofs.Binary64.Integer
import PrefixArith.Proofs.Decimal.Grammar
import PrefixArith.Proofs.Numeral
import PrefixArith.Proofs.Numeral.Literal

/-!
# The language of numerals

A numeral is a literal with a base marker or a decimal, never both. It denotes the double nearest to
its exact value, with ties to even, except that the digits of a literal of more than 128 bits are
accumulated in doubles. A word is read as a number exactly if it is a numeral and denotes a finite
double.
-/

namespace PrefixArith

namespace Numeral

/-- The digits of a number accumulated one by one, with every product and every sum rounded. -/
inductive Accumulates (base : Nat) : List Nat → Magnitude → Prop where
  | none : Accumulates base [] .zero
  | next {digits : List Nat} {digit : Nat} {value product sum : Magnitude}
      (before : Accumulates base digits value) (scaled : product.IsNearest (value.value * base))
      (added : sum.IsNearest (product.value + digit)) : Accumulates base (digits ++ [digit]) sum

/-- The magnitude that the digits of a literal denote. -/
inductive Denotes (base : Nat) (digits : List Nat) : Magnitude → Prop where
  | once {magnitude : Magnitude} (narrow : Text.ofDigits base digits < 2 ^ 128)
      (nearest : magnitude.IsNearest (Text.ofDigits base digits)) : Denotes base digits magnitude
  | accumulated {magnitude : Magnitude} (wide : 2 ^ 128 ≤ Text.ofDigits base digits)
      (accumulates : Accumulates base digits magnitude) : Denotes base digits magnitude

/-- A word is a numeral that denotes a double, which is infinite where the numeral overflows. -/
inductive Spells : List Char → Binary64 → Prop where
  | literal {base : Nat} {word : List Char} {digits : List Nat} {magnitude : Magnitude}
      (literal : Literal base word digits) (denotes : Denotes base digits magnitude) :
      Spells word (.signed false magnitude)
  | decimal {word : List Char} {numeral : Decimal.Numeral} {magnitude : Magnitude}
      (spelled : Decimal.Spelled word numeral)
      (nearest : magnitude.IsNearest (numeral.significand * 10 ^ numeral.exponent)) :
      Spells word (.signed numeral.negative magnitude)

/-! ## Digits of literals -/

theorem accumulate_concat (base : Nat) (digits : List Nat) (digit : Nat) :
    accumulate base (digits ++ [digit]) =
      ((accumulate base digits).mul (.ofNat base)).add (.ofNat digit) := by
  rw [accumulate, List.foldl_append]
  rfl

variable {base : Nat} {digits : List Nat} {magnitude : Magnitude}

theorem accumulates_accumulate (small : base ≤ 16) (below : ∀ digit ∈ digits, digit < base) :
    Accumulates base digits (accumulate base digits) := by
  induction digits using List.reverseRecOn with
  | nil => exact .none
  | append_singleton digits digit ih =>
      rw [List.forall_mem_append, List.forall_mem_singleton] at below
      have digitSmall : digit ≤ 16 := Nat.le_of_lt (Nat.lt_of_lt_of_le below.2 small)
      rw [accumulate_concat]
      have scaled := Magnitude.mul_isNearest (accumulate base digits) (.ofNat base)
      have added := Magnitude.add_isNearest ((accumulate base digits).mul (.ofNat base))
        (.ofNat digit)
      rw [Magnitude.value_ofNat (Nat.le_trans small (by decide))] at scaled
      rw [Magnitude.value_ofNat (Nat.le_trans digitSmall (by decide))] at added
      exact .next (ih below.1) scaled added

/-- Digits accumulate to one magnitude only. -/
theorem Accumulates.eq_accumulate (accumulates : Accumulates base digits magnitude)
    (small : base ≤ 16) (below : ∀ digit ∈ digits, digit < base) :
    magnitude = accumulate base digits := by
  induction accumulates with
  | none => rfl
  | @next digits digit value product sum before scaled added ih =>
      rw [List.forall_mem_append, List.forall_mem_singleton] at below
      have digitSmall : digit ≤ 16 := Nat.le_of_lt (Nat.lt_of_lt_of_le below.2 small)
      rw [accumulate_concat, ← ih below.1]
      rw [← Magnitude.value_ofNat (Nat.le_trans small (by decide))] at scaled
      rw [← Magnitude.value_ofNat (Nat.le_trans digitSmall (by decide))] at added
      obtain rfl := scaled.unique (Magnitude.mul_isNearest value (.ofNat base))
      exact added.unique (Magnitude.add_isNearest _ _)

theorem width_eq : 1 <<< 128 = 2 ^ 128 := by
  decide

/-- The digits of a literal denote the magnitude that they are read as, and no other. -/
theorem denotes_iff (small : base ≤ 16) (below : ∀ digit ∈ digits, digit < base) :
    Denotes base digits magnitude ↔ integerMagnitude base digits = magnitude := by
  rw [integerMagnitude, width_eq]
  constructor
  · intro denotes
    cases denotes with
    | once narrow nearest =>
        rw [if_pos narrow]
        exact (Magnitude.ofNat_isNearest _).unique nearest
    | accumulated wide accumulates =>
        rw [if_neg (Nat.not_lt.mpr wide)]
        exact (accumulates.eq_accumulate small below).symm
  · rintro rfl
    split
    · next narrow => exact .once narrow (Magnitude.ofNat_isNearest _)
    · next wide => exact .accumulated (Nat.not_lt.mp wide) (accumulates_accumulate small below)

/-! ## Words that are no numerals -/

/-- A word is no decimal where a marker follows a leading zero. -/
theorem decimal_read?_marker {marker : Char} (marked : (base? marker).isSome = true)
    {sign : List Char} {negative : Bool} (signed : Decimal.Sign sign negative) (rest : List Char) :
    Decimal.Numeral.read? (sign ++ '0' :: marker :: rest) = none := by
  unfold base? at marked
  split at marked
  all_goals cases signed <;> first | rfl | cases marked

/-- No literal is a decimal. -/
theorem Literal.decimal_read?_eq_none {base : Nat} {word : List Char} {values : List Nat}
    (literal : Literal base word values) : Decimal.Numeral.read? word = none := by
  cases literal with
  | @of marker digits values marked nonempty spelled =>
      have isMarker : (base? marker).isSome = true := by
        rw [marked]
        rfl
      exact decimal_read?_marker isMarker .none digits

/-- Two words are the same but for the case of letters. -/
def EqualLetters (word lower : List Char) : Prop :=
  List.Forall₂ (fun character letter => character = letter ∨ character = letter.toUpper) word lower

/-- Words that come close to numerals. -/
inductive NoNumeral : List Char → Prop where
  | named {sign name : List Char} {negative : Bool} (signed : Decimal.Sign sign negative)
      (isName : EqualLetters name "inf".toList ∨ EqualLetters name "infinity".toList ∨
        EqualLetters name "nan".toList) : NoNumeral (sign ++ name)
  | signedMarker {sign : List Char} {negative : Bool} {marker : Char}
      (signed : Decimal.Sign sign negative) (nonempty : sign ≠ [])
      (marked : (base? marker).isSome = true) (rest : List Char) :
      NoNumeral (sign ++ '0' :: marker :: rest)
  | bareMarker {marker : Char} (marked : (base? marker).isSome = true) : NoNumeral ['0', marker]
  | noDigit {sign mantissa tail : List Char} {negative : Bool} (signed : Decimal.Sign sign negative)
      (mantissaText : Decimal.Mantissa mantissa [] []) (isTail : Decimal.IsTail tail) :
      NoNumeral (sign ++ (mantissa ++ tail))
  | noExponentDigit {sign mantissa before after exponentSign : List Char} {mark : Char}
      {negative exponentNegative : Bool} (signed : Decimal.Sign sign negative)
      (mantissaText : Decimal.Mantissa mantissa before after) (isMark : mark = 'e' ∨ mark = 'E')
      (exponentSigned : Decimal.Sign exponentSign exponentNegative) :
      NoNumeral (sign ++ (mantissa ++ mark :: exponentSign))
  | underscore {word : List Char} (member : '_' ∈ word) : NoNumeral word

/-- A character that can stand in a numeral. -/
def isCharacter (character : Char) : Bool :=
  (base? character).isSome || (Text.digit? 16 character).isSome || character == '+' ||
    character == '-' || character == '.'

theorem isCharacter_of_digit? {character : Char} {value : Nat}
    (digit : Text.digit? 16 character = some value) : isCharacter character = true := by
  simp [isCharacter, digit]

theorem isCharacter_of_isDigit {character : Char} (digit : character.isDigit = true) :
    isCharacter character = true := by
  have bounds : '0' ≤ character ∧ character ≤ '9' := by
    simpa [Char.isDigit, Char.le_def] using digit
  have numbers : '0'.toNat ≤ character.toNat ∧ character.toNat ≤ '9'.toNat := bounds
  have below : character.toNat - '0'.toNat < 16 := by
    simp only [Char.reduceToNat] at numbers ⊢
    omega
  apply isCharacter_of_digit?
  rw [Text.digit?, Text.alphanumericValue?, if_pos bounds, Option.filter_some,
    if_pos (decide_eq_true below)]

theorem Literal.isCharacter {base : Nat} {word : List Char} {values : List Nat}
    (literal : Literal base word values) : ∀ character ∈ word, isCharacter character = true := by
  have small := literal.base_le
  cases literal with
  | of marked nonempty spelled =>
      rw [List.forall_mem_cons, List.forall_mem_cons]
      refine ⟨rfl, by simp [Numeral.isCharacter, marked], ?_⟩
      clear nonempty
      induction spelled with
      | nil => exact List.forall_mem_nil _
      | cons isDigit others ih =>
          have digit := (Text.digit?_eq_some_iff (Nat.le_refl 16)).mpr
            ⟨Nat.lt_of_lt_of_le isDigit.1 small, isDigit.2⟩
          exact List.forall_mem_cons.mpr ⟨isCharacter_of_digit? digit, ih⟩

theorem isCharacter_of_sign {sign : List Char} {negative : Bool}
    (signed : Decimal.Sign sign negative) : ∀ character ∈ sign, isCharacter character = true := by
  cases signed with
  | none => exact List.forall_mem_nil _
  | plus => exact List.forall_mem_singleton.mpr rfl
  | minus => exact List.forall_mem_singleton.mpr rfl

theorem isCharacter_of_mantissa {mantissa before after : List Char}
    (spelled : Decimal.Mantissa mantissa before after) :
    ∀ character ∈ mantissa, isCharacter character = true := by
  intro character member
  rcases Decimal.Mantissa.characters spelled character member with digit | rfl
  · exact isCharacter_of_isDigit digit
  · rfl

theorem isCharacter_of_exponent {tail : List Char} {exponent : Int}
    (spelled : Decimal.Exponent tail exponent) :
    ∀ character ∈ tail, isCharacter character = true := by
  cases spelled with
  | none => exact List.forall_mem_nil _
  | marked isMark integer =>
      rw [List.forall_mem_cons]
      constructor
      · rcases isMark with rfl | rfl <;> decide
      · cases integer with
        | of signed nonempty word =>
            rw [List.forall_mem_append]
            exact ⟨isCharacter_of_sign signed,
              fun character member => isCharacter_of_isDigit (word character member)⟩

/-- A word with a character that stands in no numeral is none. -/
theorem value?_eq_none_of_mem {word : List Char} {character : Char} (member : character ∈ word)
    (foreign : isCharacter character = false) : value? word = none := by
  have noLiteral : marked? word = none := by
    rw [marked?_eq_none_iff]
    intro base values literal
    rw [literal.isCharacter character member] at foreign
    cases foreign
  have noDecimal : Decimal.Numeral.read? word = none := by
    rw [Option.eq_none_iff_forall_ne_some]
    intro numeral read
    cases Decimal.Numeral.read?_eq_some_iff.mp read with
    | of signed mantissaText nonempty exponentText =>
        have known : isCharacter character = true := by
          rcases List.mem_append.mp member with inSign | inUnsigned
          · exact isCharacter_of_sign signed character inSign
          · rcases List.mem_append.mp inUnsigned with inMantissa | inTail
            · exact isCharacter_of_mantissa mantissaText character inMantissa
            · exact isCharacter_of_exponent exponentText character inTail
        rw [known] at foreign
        cases foreign
  rw [value?, noLiteral, noDecimal]
  rfl

theorem EqualLetters.exists_mem {word lower : List Char} (equal : EqualLetters word lower)
    {letter : Char} (member : letter ∈ lower) :
    ∃ character ∈ word, character = letter ∨ character = letter.toUpper := by
  induction equal with
  | nil => cases member
  | cons same others ih =>
      rcases List.mem_cons.mp member with rfl | inOthers
      · exact ⟨_, List.mem_cons_self, same⟩
      · obtain ⟨character, inWord, is⟩ := ih inOthers
        exact ⟨character, List.mem_cons_of_mem _ inWord, is⟩

/-- A word is no literal where it starts with no zero or goes on with no marker. -/
theorem marked?_eq_none_of_front {word : List Char}
    (plain : word[0]? ≠ some '0' ∨ ∀ second ∈ word[1]?, base? second = none) :
    marked? word = none := by
  unfold marked?
  split
  · next marker digits =>
      rcases plain with other | noMarker
      · exact absurd rfl other
      · rw [noMarker marker rfl]
        rfl
  · rfl

theorem base?_eq_none_of_sign {sign : List Char} {negative : Bool}
    (signed : Decimal.Sign sign negative) : ∀ character ∈ sign, base? character = none := by
  cases signed with
  | none => exact List.forall_mem_nil _
  | plus => exact List.forall_mem_singleton.mpr rfl
  | minus => exact List.forall_mem_singleton.mpr rfl

theorem integer?_eq_none_of_sign {sign : List Char} {negative : Bool}
    (signed : Decimal.Sign sign negative) : Decimal.Numeral.integer? sign = none := by
  cases signed <;> rfl

theorem value?_eq_none {word : List Char} (noLiteral : marked? word = none)
    (noDecimal : Decimal.Numeral.read? word = none) : value? word = none := by
  rw [value?, noLiteral, noDecimal]
  rfl

/-- No numeral is without digits in its mantissa. -/
theorem value?_noDigit {sign mantissa tail : List Char} {negative : Bool}
    (signed : Decimal.Sign sign negative) (mantissaText : Decimal.Mantissa mantissa [] [])
    (isTail : Decimal.IsTail tail) : value? (sign ++ (mantissa ++ tail)) = none := by
  refine value?_eq_none (marked?_eq_none_of_front (.inl ?_)) ?_
  · cases signed with
    | plus => simp
    | minus => simp
    | none =>
        cases mantissaText with
        | pointed beforeWord afterWord => simp
        | whole word =>
            intro zero
            rw [List.nil_append, List.nil_append, ← List.head?_eq_getElem?] at zero
            rcases isTail '0' zero with is | is <;> cases is
  · rw [Decimal.Numeral.read?_append signed mantissaText isTail, List.append_nil, if_pos rfl]

/-- No numeral is without digits in its exponent. -/
theorem value?_noExponentDigit {sign mantissa before after exponentSign : List Char} {mark : Char}
    {negative exponentNegative : Bool} (signed : Decimal.Sign sign negative)
    (mantissaText : Decimal.Mantissa mantissa before after) (isMark : mark = 'e' ∨ mark = 'E')
    (exponentSigned : Decimal.Sign exponentSign exponentNegative) :
    value? (sign ++ (mantissa ++ mark :: exponentSign)) = none := by
  have isTail : Decimal.IsTail (mark :: exponentSign) := by
    intro next starts
    obtain rfl := Option.some.inj starts
    exact isMark
  refine value?_eq_none (marked?_eq_none_of_front (.inr ?_)) ?_
  · intro second is
    rcases List.mem_append.mp (List.mem_of_getElem? is) with inSign | inRest
    · exact base?_eq_none_of_sign signed second inSign
    · rcases List.mem_append.mp inRest with inMantissa | inTail
      · exact base?_eq_none (mantissaText.characters second inMantissa)
      · rcases List.mem_cons.mp inTail with rfl | inSign
        · rcases isMark with rfl | rfl <;> rfl
        · exact base?_eq_none_of_sign exponentSigned second inSign
  · have noExponent : Decimal.Numeral.exponent? (mark :: exponentSign) = none := by
      rw [Decimal.Numeral.exponent?, if_pos (by simpa using isMark),
        integer?_eq_none_of_sign exponentSigned]
    rw [Decimal.Numeral.read?_append signed mantissaText isTail, noExponent, Option.map_none,
      ite_self]

/-- What comes close to a numeral is none. -/
theorem NoNumeral.value?_eq_none {word : List Char} (noNumeral : NoNumeral word) :
    value? word = none := by
  cases noNumeral with
  | named signed isName =>
      obtain ⟨character, inName, is⟩ :
          ∃ character ∈ _, character = 'n' ∨ character = 'n'.toUpper := by
        rcases isName with equal | equal | equal
        · exact equal.exists_mem (by decide)
        · exact equal.exists_mem (by decide)
        · exact equal.exists_mem (by decide)
      apply value?_eq_none_of_mem (List.mem_append_right _ inName)
      rcases is with rfl | rfl <;> decide
  | signedMarker signed nonempty marked rest =>
      refine Numeral.value?_eq_none ?_ (decimal_read?_marker marked signed rest)
      cases signed with
      | none => exact absurd rfl nonempty
      | plus => rfl
      | minus => rfl
  | bareMarker marked =>
      obtain ⟨base, is⟩ := Option.isSome_iff_exists.mp marked
      refine Numeral.value?_eq_none ?_ (decimal_read?_marker marked .none [])
      rw [marked?, is]
      rfl
  | noDigit signed mantissaText isTail => exact value?_noDigit signed mantissaText isTail
  | noExponentDigit signed mantissaText isMark exponentSigned =>
      exact value?_noExponentDigit signed mantissaText isMark exponentSigned
  | underscore member => exact value?_eq_none_of_mem member (by decide)

/-! ## Exactly the numerals -/

theorem value?_eq_some_iff {word : List Char} {number : Binary64} :
    value? word = some number ↔ Spells word number := by
  constructor
  · intro read
    unfold value? at read
    split at read
    · next magnitude marked =>
        cases read
        obtain ⟨base, values, literal, is⟩ := marked?_eq_some_iff.mp marked
        exact .literal literal ((denotes_iff literal.base_le literal.value_lt).mpr is)
    · obtain ⟨numeral, decimal, rfl⟩ := Option.map_eq_some_iff.mp read
      exact .decimal (Decimal.Numeral.read?_eq_some_iff.mp decimal)
        (Decimal.magnitude_isNearest _ _)
  · intro spells
    cases spells with
    | literal literal denotes =>
        rw [denotes_iff literal.base_le literal.value_lt] at denotes
        rw [value?, marked?_eq_some_iff.mpr ⟨_, _, literal, denotes⟩]
    | @decimal word numeral magnitude spelled nearest =>
        have read := Decimal.Numeral.read?_eq_some_iff.mpr spelled
        have noLiteral : marked? word = none := by
          rw [marked?_eq_none_iff]
          intro base values literal
          rw [literal.decimal_read?_eq_none] at read
          cases read
        rw [value?, noLiteral]
        dsimp only
        rw [read, Option.map_some, Decimal.Numeral.toBinary64,
          (Decimal.magnitude_isNearest _ _).unique nearest]

end Numeral

end PrefixArith
