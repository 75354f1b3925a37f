import PrefixArith.Numeral
import PrefixArith.Proofs.Binary64.Neighbours
import PrefixArith.Proofs.Decimal.Positional
import PrefixArith.Proofs.Decimal.Shortest
import PrefixArith.Proofs.Token.Division

/-!
# Printed numbers are numerals

The plain text of a finite double is a positional text behind at most a minus sign. No base marker
opens it, so it is read as a decimal, and the decimal denotes the double it was printed for. The other
doubles have words that are no numerals. So different doubles have different texts, and every text is
made of characters that can stand in an atom.
-/

namespace PrefixArith

namespace Numeral

/-- No base marker is a digit or a point. -/
theorem base?_eq_none {character : Char}
    (plain : character.isDigit = true ∨ character = '.') : base? character = none := by
  unfold base?
  split <;> first | rfl | (rcases plain with digit | point <;> contradiction)

/-- A positional text is not marked with a base. -/
theorem marked?_eq_none {text : List Char} {significand : Nat} {exponent : Int}
    (positional : Decimal.Positional text significand exponent) : marked? text = none := by
  obtain ⟨first, rest, rfl, -, plain⟩ := positional.exists_cons
  unfold marked?
  split
  · next marker digits is =>
      rw [(List.cons.inj is).2] at plain
      rw [base?_eq_none (plain marker (List.mem_cons_self ..))]
      rfl
  · rfl

/-- Behind a minus sign, or without one, a positional text denotes the magnitude it spells. -/
theorem value?_of_positional {negative : Bool} {text : List Char} {significand : Nat}
    {exponent : Int} (positional : Decimal.Positional text significand exponent) :
    value? (if negative then '-' :: text else text) =
      some (.signed negative (Decimal.magnitude significand exponent)) := by
  cases negative with
  | false =>
      rw [if_neg Bool.false_ne_true, value?, marked?_eq_none positional]
      have read := positional.read?_eq .none
      rw [List.nil_append] at read
      dsimp only
      rw [read]
      rfl
  | true =>
      have unmarked : marked? ('-' :: text) = none := rfl
      have read := positional.read?_eq .minus
      rw [List.singleton_append] at read
      rw [if_pos rfl, value?, unmarked]
      dsimp only
      rw [read]
      rfl

/-- The plain text of a finite double is read as that double, the sign of a zero included. -/
theorem read?_plain_text {value : Binary64} (finite : value.isFinite = true) :
    read? (plain.text value) = some value := by
  cases value with
  | nan => cases finite
  | signed negative magnitude =>
      obtain ⟨significand, exponent, positional, denotes⟩ :=
        (Decimal.shortest plain.tie magnitude).exists_positional
      rw [Decimal.magnitude_shortest] at denotes
      have denoted : value? (plain.text (.signed negative magnitude)) =
          some (.signed negative magnitude) := by
        rw [plain.text_signed negative finite]
        exact (value?_of_positional positional).trans (by rw [denotes])
      rw [read?, denoted, Option.filter_some, if_pos finite]

/-! ## Characters of numbers -/

theorem isAtomCharacter_of_isDigit {character : Char} (digit : character.isDigit = true) :
    Token.isAtomCharacter character = true := by
  rw [Token.isAtomCharacter_iff]
  refine ⟨?_, ?_, ?_⟩
  · have bounds : 48 ≤ character.toNat ∧ character.toNat ≤ 57 := by
      simpa [Char.isDigit, UInt32.le_iff_toNat_le] using digit
    simp [Text.isSeparator, Text.isSpace]
    omega
  · rintro rfl
    cases digit
  · rintro rfl
    cases digit

theorem isAtomCharacter_of_positional {text : List Char} {significand : Nat} {exponent : Int}
    (positional : Decimal.Positional text significand exponent) {character : Char}
    (member : character ∈ text) : Token.isAtomCharacter character = true := by
  obtain ⟨first, rest, rfl, digit, others⟩ := positional.exists_cons
  rcases List.mem_cons.mp member with rfl | inRest
  · exact isAtomCharacter_of_isDigit digit
  · rcases others character inRest with other | rfl
    · exact isAtomCharacter_of_isDigit other
    · rfl

/-! ## Words of doubles that are not finite -/

/-- The doubles that are not finite, with their words. -/
def nonFinites : List (Binary64 × List Char) :=
  [(.nan, "NaN".toList), (.signed false .infinity, "inf".toList),
    (.signed true .infinity, "-inf".toList)]

theorem mem_nonFinites {value : Binary64} (infinite : value.isFinite = false) :
    (value, plain.text value) ∈ nonFinites := by
  cases value with
  | nan => exact List.mem_cons_self
  | signed negative magnitude =>
      obtain rfl := Magnitude.eq_infinity_of_not_finite (Bool.eq_false_iff.mp infinite)
      cases negative with
      | false => exact .tail _ (.head _)
      | true => exact .tail _ (.tail _ (.head _))

/-- The word for a double that is not finite is an atom and no numeral. -/
theorem nonFinites_spec : ∀ pair ∈ nonFinites, read? pair.2 = none ∧ pair.2 ≠ [] ∧
    pair.2.all Token.isAtomCharacter = true := by
  decide

theorem nonFinites_injective :
    ∀ left ∈ nonFinites, ∀ right ∈ nonFinites, left.2 = right.2 → left.1 = right.1 := by
  decide

/-! ## Plain texts -/

/-- Different doubles have different plain texts. -/
theorem eq_of_plain_text_eq {left right : Binary64} (same : plain.text left = plain.text right) :
    left = right := by
  have read := congrArg read? same
  cases leftFinite : left.isFinite with
  | true =>
      rw [read?_plain_text leftFinite] at read
      cases rightFinite : right.isFinite with
      | true => exact Option.some.inj (read.trans (read?_plain_text rightFinite))
      | false =>
          rw [(nonFinites_spec _ (mem_nonFinites rightFinite)).1] at read
          cases read
  | false =>
      rw [(nonFinites_spec _ (mem_nonFinites leftFinite)).1] at read
      cases rightFinite : right.isFinite with
      | true =>
          rw [read?_plain_text rightFinite] at read
          cases read
      | false =>
          exact nonFinites_injective _ (mem_nonFinites leftFinite) _ (mem_nonFinites rightFinite)
            same

/-- The plain text of a double is not empty. -/
theorem plain_text_ne_nil (value : Binary64) : plain.text value ≠ [] := by
  cases finite : value.isFinite with
  | true =>
      intro empty
      have none : read? [] = none := rfl
      rw [← empty, read?_plain_text finite] at none
      cases none
  | false => exact (nonFinites_spec _ (mem_nonFinites finite)).2.1

/-- Every character in the plain text of a double can stand in an atom. -/
theorem isAtomCharacter_of_mem_plain_text {value : Binary64} {character : Char}
    (member : character ∈ plain.text value) : Token.isAtomCharacter character = true := by
  cases finite : value.isFinite with
  | false =>
      exact List.all_eq_true.mp (nonFinites_spec _ (mem_nonFinites finite)).2.2 character member
  | true =>
      cases value with
      | nan => cases finite
      | signed negative magnitude =>
          obtain ⟨_, _, positional, -⟩ :=
            (Decimal.shortest plain.tie magnitude).exists_positional
          rw [plain.text_signed negative finite] at member
          cases negative with
          | false => exact isAtomCharacter_of_positional positional member
          | true =>
              rcases List.mem_cons.mp member with rfl | inUnsigned
              · rfl
              · exact isAtomCharacter_of_positional positional inUnsigned

end Numeral

end PrefixArith
