import PrefixArith.Calculator
import PrefixArith.Proofs.Decimal.Layout
import PrefixArith.Proofs.Decimal.Tie
import PrefixArith.Proofs.Expr.Spelling
import PrefixArith.Proofs.Numeral.Language

/-!
# Printed numbers are fed back

The plain text and the JSON text of a finite double are two notations of a shortest decimal of it.
Each is a single atom that is read as the double it was printed for, and no decimal with fewer
significant digits is. The two decimals differ only where two shortest ones are equally near.
-/

namespace PrefixArith

namespace Numeral

/-! ## Numerals as atoms -/

theorem isCharacter_bounds {character : Char} (known : isCharacter character = true) :
    43 ≤ character.toNat ∧ character.toNat ≤ 122 := by
  simp only [isCharacter, Bool.or_eq_true, beq_iff_eq] at known
  rcases known with (((marker | digit) | rfl) | rfl) | rfl
  · unfold base? at marker
    split at marker <;> first | decide | cases marker
  · obtain ⟨value, digit⟩ := Option.isSome_iff_exists.mp digit
    obtain ⟨alphanumeric, -⟩ := Option.filter_eq_some_iff.mp digit
    have ranges : '0'.toNat ≤ character.toNat ∧ character.toNat ≤ '9'.toNat ∨
        'a'.toNat ≤ character.toNat ∧ character.toNat ≤ 'z'.toNat ∨
        'A'.toNat ≤ character.toNat ∧ character.toNat ≤ 'Z'.toNat := by
      unfold Text.alphanumericValue? at alphanumeric
      split at alphanumeric
      · next isDigit => exact .inl isDigit
      · split at alphanumeric
        · next isLower => exact .inr (.inl isLower)
        · split at alphanumeric
          · next isUpper => exact .inr (.inr isUpper)
          · cases alphanumeric
    simp only [Char.reduceToNat] at ranges
    omega
  · decide
  · decide
  · decide

/-- What can stand in a numeral can stand in an atom. -/
theorem isAtomCharacter_of_isCharacter {character : Char} (known : isCharacter character = true) :
    Token.isAtomCharacter character = true := by
  have bounds := isCharacter_bounds known
  rw [Token.isAtomCharacter_iff]
  refine ⟨?_, ?_, ?_⟩
  · simp [Text.isSeparator, Text.isSpace]
    omega
  · rintro rfl
    exact absurd bounds.1 (by decide)
  · rintro rfl
    exact absurd bounds.1 (by decide)

/-- A numeral can be told from the end of a text as an atom. -/
theorem precedes_of_read? {word : List Char} {number : Binary64}
    (read : read? word = some number) : (Token.atom (String.ofList word)).Precedes [] := by
  obtain ⟨denoted, -⟩ := Option.filter_eq_some_iff.mp read
  refine ⟨?_, ?_, nofun⟩
  · rw [String.toList_ofList]
    rintro rfl
    cases denoted
  · intro character member
    rw [String.toList_ofList] at member
    apply isAtomCharacter_of_isCharacter
    by_contra foreign
    rw [value?_eq_none_of_mem member (Bool.eq_false_of_not_eq_true foreign)] at denoted
    cases denoted

end Numeral

namespace Decimal

/-- The exact value of a numeral. -/
def Numeral.value (numeral : Numeral) : ℚ :=
  (if numeral.negative then -1 else 1) * (numeral.significand * 10 ^ numeral.exponent)

/-- A decimal is read as a double. -/
def Numeral.IsReadAs (numeral : Numeral) (number : Binary64) : Prop :=
  ∃ word, Spelled word numeral ∧ PrefixArith.Numeral.read? word = some number

/--
A double lies half way between two neighbouring shortest decimals. Both are read as the double, and
no decimal on a coarser grid is; `lower` has the smaller size and an even last digit, and `upper` is
the next one on the same grid.
-/
inductive IsMidway (number : Binary64) (lower upper : Numeral) : Prop where
  | of {below : Nat} {exponent : Int} (even : below % 2 = 0)
      (lowerSize : |lower.value| = below * 10 ^ exponent)
      (upperSize : |upper.value| = (below + 1 : Nat) * 10 ^ exponent)
      (middle : number.rational? = some ((lower.value + upper.value) / 2))
      (lowerRead : lower.IsReadAs number) (upperRead : upper.IsReadAs number)
      (coarsest : ∀ other : Numeral, other.IsReadAs number → other.exponent ≤ exponent)

/-- No decimal that is read as a double has fewer significant digits than a numeral. -/
def IsFewest (number : Binary64) (numeral : Numeral) : Prop :=
  ∀ other : Numeral, other.IsReadAs number →
    significantDigits numeral.significand ≤ significantDigits other.significand

/-- Every numeral has a word, for example one with an exponent. -/
theorem Numeral.exists_spelled (numeral : Numeral) : ∃ word, Spelled word numeral := by
  obtain ⟨negative, significand, exponent⟩ := numeral
  obtain ⟨written, -, proper, denotes, -⟩ :=
    (Scientific.mk significand exponent).exists_written_exponent
  have same : written.significand = significand := by
    rw [denotes.significand, power_zero, Nat.mul_one]
  have scale : written.scale = exponent := denotes.scale.trans (Int.sub_zero exponent)
  rw [← same, ← scale]
  cases negative with
  | false => exact ⟨_, proper.spelled .none⟩
  | true => exact ⟨_, proper.spelled .minus⟩

/-- A decimal is read as the finite double of its sign that is nearest to it, and as no other. -/
theorem Numeral.isReadAs_iff {numeral : Numeral} {negative : Bool} {magnitude : Magnitude}
    (finite : magnitude.isFinite = true) :
    numeral.IsReadAs (.signed negative magnitude) ↔
      numeral.negative = negative ∧
        magnitude.IsNearest (numeral.significand * 10 ^ numeral.exponent) := by
  constructor
  · rintro ⟨word, spelled, read⟩
    obtain ⟨denoted, -⟩ := Option.filter_eq_some_iff.mp read
    have nearest := magnitude_isNearest numeral.significand numeral.exponent
    have value := PrefixArith.Numeral.value?_eq_some_iff.mpr (.decimal spelled nearest)
    rw [denoted] at value
    obtain ⟨sign, same⟩ := Binary64.signed.inj (Option.some.inj value)
    exact ⟨sign.symm, same ▸ nearest⟩
  · rintro ⟨rfl, nearest⟩
    obtain ⟨word, spelled⟩ := numeral.exists_spelled
    have denoted := PrefixArith.Numeral.value?_eq_some_iff.mpr (.decimal spelled nearest)
    refine ⟨word, spelled, ?_⟩
    rw [PrefixArith.Numeral.read?, denoted, Option.filter_some]
    exact if_pos finite

/-- The size of the value of a decimal is that of the decimal without its sign. -/
theorem Numeral.abs_value (numeral : Numeral) :
    |numeral.value| = numeral.significand * 10 ^ numeral.exponent := by
  have size : (0 : ℚ) ≤ numeral.significand * 10 ^ numeral.exponent := by positivity
  rw [Numeral.value, abs_mul, abs_of_nonneg size]
  cases numeral.negative <;> simp

/-! ## Texts of doubles -/

variable {layout : Layout} {negative : Bool} {magnitude : Magnitude}

/-- A numeral spells the shortest decimal of a magnitude under a sign. -/
structure Numeral.IsShortest (numeral : Numeral) (tie : Tie) (negative : Bool)
    (magnitude : Magnitude) : Prop where
  sign : numeral.negative = negative
  exact : (numeral.significand * 10 ^ numeral.exponent : ℚ) =
    (shortest tie magnitude).significand * 10 ^ (shortest tie magnitude).exponent
  count : significantDigits numeral.significand =
    significantDigits (shortest tie magnitude).significand

/-- The text of a finite double in a layout spells its shortest decimal. -/
theorem Layout.exists_spelled (isMark : layout.wholeMark = [] ∨ layout.wholeMark = ['.', '0'])
    (negative : Bool) (finite : magnitude.isFinite = true) :
    ∃ numeral : Numeral, Spelled (layout.text (.signed negative magnitude)) numeral ∧
      numeral.IsShortest layout.tie negative magnitude := by
  obtain ⟨written, added, text, proper, denotes, -⟩ := layout.exists_written isMark magnitude
  refine ⟨⟨negative, written.significand, written.scale⟩, ?_, rfl, denotes.value,
    denotes.significantDigits⟩
  rw [layout.text_signed negative finite, text]
  cases negative with
  | false => exact proper.spelled .none
  | true => exact proper.spelled .minus

namespace Numeral.IsShortest

variable {tie : Tie} {numeral : Numeral}

/-- A word that spells a shortest decimal of a finite double is read as this double. -/
theorem read?_eq (isShortest : numeral.IsShortest tie negative magnitude)
    (finite : magnitude.isFinite = true) {word : List Char} (spelled : Spelled word numeral) :
    PrefixArith.Numeral.read? word = some (.signed negative magnitude) := by
  have nearest := shortest_isNearest tie magnitude
  rw [← isShortest.exact] at nearest
  have denoted := PrefixArith.Numeral.value?_eq_some_iff.mpr (.decimal spelled nearest)
  rw [PrefixArith.Numeral.read?, denoted, isShortest.sign, Option.filter_some]
  exact if_pos finite

theorem isReadAs (isShortest : numeral.IsShortest tie negative magnitude)
    (finite : magnitude.isFinite = true) : numeral.IsReadAs (.signed negative magnitude) := by
  obtain ⟨word, spelled⟩ := numeral.exists_spelled
  exact ⟨word, spelled, isShortest.read?_eq finite spelled⟩

theorem isFewest (isShortest : numeral.IsShortest tie negative magnitude)
    (nonzero : magnitude.place ≠ 0) (finite : magnitude.isFinite = true) :
    IsFewest (.signed negative magnitude) numeral := by
  intro other read
  have nearest := ((Numeral.isReadAs_iff finite).mp read).2
  calc
    significantDigits numeral.significand
        = significantDigits (shortest tie magnitude).significand := isShortest.count
    _ ≤ (digits (shortest tie magnitude).significand).length := significantDigits_le _
    _ ≤ _ := length_digits_shortest_le tie nonzero finite nearest

theorem value_eq (isShortest : numeral.IsShortest tie negative magnitude) :
    numeral.value = (if negative then -1 else 1) *
      ((shortest tie magnitude).significand * 10 ^ (shortest tie magnitude).exponent) := by
  rw [Numeral.value, isShortest.sign, isShortest.exact]

end Numeral.IsShortest

/-! ## Half way between two decimals -/

/-- The mean of two decimals of one sign is a double exactly if that of their sizes is its size. -/
theorem rational?_eq_mean_iff (finite : magnitude.isFinite = true) {lower upper : Numeral}
    (lowerSign : lower.negative = negative) (upperSign : upper.negative = negative) :
    (Binary64.signed negative magnitude).rational? = some ((lower.value + upper.value) / 2) ↔
      2 * magnitude.value = lower.significand * 10 ^ lower.exponent +
        upper.significand * 10 ^ upper.exponent := by
  rw [Binary64.rational?, if_pos finite, Option.some_inj, Numeral.value, Numeral.value, lowerSign,
    upperSign]
  cases negative with
  | false =>
      rw [if_neg Bool.false_ne_true, if_neg Bool.false_ne_true]
      constructor <;> intro same <;> linarith
  | true =>
      rw [if_pos rfl, if_pos rfl]
      constructor <;> intro same <;> linarith

variable {lower upper : Numeral}

/-- Both ways to break a tie lead to one decimal, unless the double lies half way between two. -/
theorem value_eq_or_isMidway (isLower : lower.IsShortest .even negative magnitude)
    (isUpper : upper.IsShortest .up negative magnitude) (finite : magnitude.isFinite = true) :
    upper.value = lower.value ∨ IsMidway (.signed negative magnitude) lower upper := by
  rcases shortest_ties magnitude with same | ⟨below, exponent, even, isEven, isUp, middle⟩
  · left
    rw [isUpper.value_eq, isLower.value_eq, same]
  · right
    have lowerSize := isLower.exact
    have upperSize := isUpper.exact
    rw [isEven] at lowerSize
    rw [isUp] at upperSize
    have nonzero : magnitude.place ≠ 0 := by
      intro zero
      rw [shortest, if_pos zero] at isUp
      cases isUp
    refine .of even (lower.abs_value.trans lowerSize) (upper.abs_value.trans upperSize) ?_
      (isLower.isReadAs finite) (isUpper.isReadAs finite) fun other read => ?_
    · rw [rational?_eq_mean_iff finite isLower.sign isUpper.sign, lowerSize, upperSize, middle]
    · have nearest := ((Numeral.isReadAs_iff finite).mp read).2
      have reached := le_exponent_shortest .even nonzero finite
        (pos_of_isNearest nonzero nearest) nearest
      rwa [isEven] at reached

/-- Half way between two shortest decimals each way to break a tie takes the one of its own. -/
theorem IsMidway.value_eq (isMidway : IsMidway (.signed negative magnitude) lower upper)
    (finite : magnitude.isFinite = true) {exported printed : Numeral}
    (isExported : exported.IsShortest .even negative magnitude)
    (isPrinted : printed.IsShortest .up negative magnitude) :
    exported.value = lower.value ∧ printed.value = upper.value := by
  obtain @⟨below, exponent, even, lowerSize, upperSize, middle, lowerRead, upperRead, coarsest⟩ :=
    isMidway
  obtain ⟨lowerSign, lowerNearest⟩ := (Numeral.isReadAs_iff finite).mp lowerRead
  obtain ⟨upperSign, upperNearest⟩ := (Numeral.isReadAs_iff finite).mp upperRead
  rw [rational?_eq_mean_iff finite lowerSign upperSign] at middle
  rw [Numeral.abs_value] at lowerSize upperSize
  rw [lowerSize] at lowerNearest middle
  rw [upperSize] at upperNearest middle
  have nonzero : magnitude.place ≠ 0 := by
    intro zero
    obtain rfl : magnitude = .zero := Magnitude.eq_of_place_eq zero
    have below_nonneg : (0 : ℚ) ≤ below * 10 ^ exponent := by positivity
    have above_pos : (0 : ℚ) < (below + 1 : Nat) * 10 ^ exponent := by positivity
    rw [Magnitude.value_of_units_eq_zero Magnitude.units_zero] at middle
    linarith
  have taken (tie : Tie) : shortest tie magnitude = ⟨tie.settle below, exponent⟩ := by
    have read : Numeral.IsReadAs
        ⟨negative, (shortest tie magnitude).significand, (shortest tie magnitude).exponent⟩
        (.signed negative magnitude) :=
      (Numeral.isReadAs_iff finite).mpr ⟨rfl, shortest_isNearest tie magnitude⟩
    exact shortest_of_middle tie nonzero finite middle lowerNearest upperNearest (coarsest _ read)
  constructor
  · rw [isExported.value_eq, taken, Numeral.value, lowerSign, lowerSize, Tie.settle, even,
      Nat.add_zero]
  · rw [isPrinted.value_eq, taken, Numeral.value, upperSign, upperSize, Tie.settle]

end Decimal

/-- A text is a single token that every calculator evaluates to a number. -/
structure IsTokenOf (number : Binary64) (text : List Char) : Prop where
  single : Lexeme.read (String.ofList text) =
    .ok [⟨.atom (String.ofList text), 0, Text.size text⟩]
  evaluates : ∀ calculator : Calculator,
    calculator.evaluate (String.ofList text) = .ok (.number number)

theorem isTokenOf_of_read? {word : List Char} {number : Binary64}
    (read : Numeral.read? word = some number) : IsTokenOf number word := by
  have divided := Lexeme.Division.token (Numeral.precedes_of_read? read)
    (.done (0 + Text.size (Token.atom (String.ofList word)).text.toList))
  have division : Lexeme.Division 0 (String.ofList word).toList
      [⟨.atom (String.ofList word), 0, Text.size word⟩] := by
    simpa [Token.text] using divided
  refine ⟨Lexeme.read_eq division, fun calculator => ?_⟩
  have stands (position : Nat) :
      Expr.ofAtom (String.ofList word) position = .ok (.number number) := by
    rw [Expr.ofAtom, String.toList_ofList, read]
  have found : calculator.read (String.ofList word) = .ok (.number number) :=
    Expr.Spelling.read_eq division (.leaf stands) (Nat.zero_le _)
  rw [Calculator.evaluate, found]
  rfl

namespace Value

/--
The plain text and the JSON text of a finite double are single tokens that every calculator evaluates
to that very double. The two spell the same decimal, unless the double lies half way between two
neighbouring shortest ones of which the lower has an even last digit; wherever it does, the plain text
spells the greater in size and the JSON text the even one. But for the zeros no decimal with fewer
significant digits is read as the double.
-/
theorem number_texts {number : Binary64} (finite : number.isFinite = true) :
    IsTokenOf number (Value.number number).text ∧ IsTokenOf number (Value.number number).json ∧
      ∃ printed exported : Decimal.Numeral,
        Decimal.Spelled (Value.number number).text printed ∧
        Decimal.Spelled (Value.number number).json exported ∧
        (printed.value = exported.value ∨ Decimal.IsMidway number exported printed) ∧
        (∀ lower upper, Decimal.IsMidway number lower upper →
          exported.value = lower.value ∧ printed.value = upper.value) ∧
        ((∀ negative, number ≠ .signed negative .zero) →
          Decimal.IsFewest number printed ∧ Decimal.IsFewest number exported) := by
  cases number with
  | nan => cases finite
  | signed negative magnitude =>
      obtain ⟨printed, printedSpelled, isUpper⟩ :=
        Numeral.plain.exists_spelled (.inl rfl) negative finite
      obtain ⟨exported, exportedSpelled, isLower⟩ :=
        Json.numberLayout.exists_spelled (.inr rfl) negative finite
      refine ⟨isTokenOf_of_read? (isUpper.read?_eq finite printedSpelled),
        isTokenOf_of_read? (isLower.read?_eq finite exportedSpelled), printed, exported,
        printedSpelled, exportedSpelled, Decimal.value_eq_or_isMidway isLower isUpper finite,
        fun lower upper isMidway => isMidway.value_eq finite isLower isUpper, ?_⟩
      intro nonzero
      have place : magnitude.place ≠ 0 := by
        intro zero
        exact nonzero negative (congrArg _ (Magnitude.eq_of_place_eq zero))
      exact ⟨isUpper.isFewest place finite, isLower.isFewest place finite⟩

/-- The texts of `2 ^ 50 + 0.25`, which lies half way between two decimals of 17 digits. -/
theorem texts_midway :
    (Value.number (.signed false (.ofRatio 4503599627370497 4))).text =
        "1125899906842624.3".toList ∧
      (Value.number (.signed false (.ofRatio 4503599627370497 4))).json =
        "1125899906842624.2".toList := by
  constructor <;> decide +kernel

theorem number_texts_midway :
    let number : Binary64 := .signed false (.ofRatio 4503599627370497 4)
    number.isFinite = true ∧ IsTokenOf number "1125899906842624.3".toList ∧
      IsTokenOf number "1125899906842624.2".toList := by
  intro number
  have finite : number.isFinite = true := by decide +kernel
  obtain ⟨plain, json, -⟩ := number_texts finite
  rw [texts_midway.1] at plain
  rw [texts_midway.2] at json
  exact ⟨finite, plain, json⟩

/-- The two texts of a finite double do not always spell the same decimal. -/
theorem number_texts_not_same :
    ∃ number : Binary64, number.isFinite = true ∧
      ∀ printed exported : Decimal.Numeral, Decimal.Spelled (Value.number number).text printed →
        Decimal.Spelled (Value.number number).json exported → printed.value ≠ exported.value := by
  refine ⟨.signed false (.ofRatio 4503599627370497 4), by decide +kernel, ?_⟩
  intro printed exported printedSpelled exportedSpelled
  rw [texts_midway.1, ← Decimal.Numeral.read?_eq_some_iff] at printedSpelled
  rw [texts_midway.2, ← Decimal.Numeral.read?_eq_some_iff] at exportedSpelled
  have upper : Decimal.Numeral.read? "1125899906842624.3".toList =
      some ⟨false, 11258999068426243, -1⟩ := by decide
  have lower : Decimal.Numeral.read? "1125899906842624.2".toList =
      some ⟨false, 11258999068426242, -1⟩ := by decide
  obtain rfl := Option.some.inj (upper.symm.trans printedSpelled)
  obtain rfl := Option.some.inj (lower.symm.trans exportedSpelled)
  norm_num [Decimal.Numeral.value]

end Value

end PrefixArith
