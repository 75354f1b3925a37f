import PrefixArith.Json.Tree
import PrefixArith.Proofs.Json.Number

/-!
# Reading trees of numbers and lists

What the readers of values and of items do with a text that opens a number, a constant or a list. The
remainders that the readers hand on are compared as texts here, without the bounds on their length.
-/

namespace PrefixArith

namespace Json

/-- What a reader finds and leaves, as a plain text. -/
def plain {ε α : Type} {text : List Char} (result : Except ε (α × Remainder text)) :
    Except ε (α × List Char) :=
  result.map fun found => (found.1, found.2.val)

variable {ε α : Type} {room : Nat} {first : Char} {text : List Char}

theorem plain_eq_error {result : Except ε (α × Remainder text)} {fault : ε}
    (failed : plain result = .error fault) : result = .error fault := by
  cases result with
  | error other => exact congrArg Except.error (Except.error.inj failed)
  | ok found => cases failed

theorem exists_of_plain_eq_ok {result : Except ε (α × Remainder text)} {found : α}
    {rest : List Char} (taken : plain result = .ok (found, rest)) :
    ∃ after, result = .ok (found, after) ∧ after.val = rest := by
  cases result with
  | error fault => cases taken
  | ok both =>
      obtain ⟨other, after⟩ := both
      obtain ⟨rfl, rfl⟩ := Prod.mk.inj (Except.ok.inj taken)
      exact ⟨after, rfl, rfl⟩

theorem next?_cons (visible : isBlank first = false) (rest : List Char) :
    next? (first :: rest) = some (first, ⟨rest, Nat.lt_succ_self _⟩) :=
  if_neg (Bool.eq_false_iff.mp visible)

/-- A character that opens a number opens nothing else. -/
theorem startsNumber_ne (starts : startsNumber first = true) :
    isBlank first = false ∧ first ≠ ']' ∧ first ≠ 'n' ∧ first ≠ 't' ∧ first ≠ 'f' ∧
      first ≠ '"' := by
  rw [startsNumber, Bool.or_eq_true, beq_iff_eq] at starts
  rcases starts with rfl | digit
  · decide
  · have other {character : Char} (foreign : character.isDigit = false) : first ≠ character := by
      rintro rfl
      rw [foreign] at digit
      exact Bool.false_ne_true digit
    refine ⟨?_, other rfl, other rfl, other rfl, other rfl, other rfl⟩
    simp only [isBlank, Bool.or_eq_false_iff, beq_eq_false_iff_ne]
    exact ⟨⟨⟨other rfl, other rfl⟩, other rfl⟩, other rfl⟩

/-- The text of a finite double opens a number. -/
theorem exists_text_cons {number : Binary64} (finite : number.isFinite = true) :
    ∃ first rest, numberLayout.text number = first :: rest ∧ startsNumber first = true := by
  cases number with
  | nan => cases finite
  | signed negative magnitude =>
      obtain ⟨written, isText⟩ := Number.exists_isText finite
      rw [Number.text_signed negative finite, isText.text]
      cases negative with
      | true => exact ⟨'-', written.text, rfl, rfl⟩
      | false =>
          obtain ⟨digit, others, whole⟩ := List.exists_cons_of_ne_nil isText.proper.nonempty
          have isDigit := isText.proper.word digit (whole ▸ List.mem_cons_self)
          have starts : startsNumber digit = true := by
            rw [startsNumber, isDigit, Bool.or_true]
          rw [Decimal.Written.text, whole]
          exact ⟨digit, _, rfl, starts⟩

theorem plain_numeral (first : Char) (rest : Remainder text) :
    plain (numeral first rest) = Number.read (first :: rest.val) := by
  unfold numeral
  split
  · next failed => exact failed.symm
  · next taken => exact taken.symm

theorem plain_quoted (rest : Remainder text) : plain (quoted [] rest) = Quoted.read rest.val := by
  unfold quoted
  split
  · next failed => exact failed.symm
  · next found => exact found.symm

theorem plain_value_number (starts : startsNumber first = true) (rest : List Char) :
    plain (value room (first :: rest)) =
      (Number.read (first :: rest)).map fun found => (.number found.1, found.2) := by
  obtain ⟨visible, -, notNull, notTrue, notFalse, notString⟩ := startsNumber_ne starts
  rw [value, next?_cons visible]
  dsimp only
  rw [if_neg notNull, if_neg notTrue, if_neg notFalse, if_neg notString, if_pos starts]
  have read := plain_numeral first (⟨rest, Nat.lt_succ_self _⟩ : Remainder (first :: rest))
  rw [← read]
  cases numeral first (⟨rest, Nat.lt_succ_self _⟩ : Remainder (first :: rest)) <;> rfl

theorem plain_value_null (rest : List Char) :
    plain (value room ('n' :: 'u' :: 'l' :: 'l' :: rest)) = .ok (.null, rest) := by
  rw [value, next?_cons rfl]
  rfl

theorem plain_value_list (rest : List Char) :
    plain (value room ('[' :: rest)) =
      if room = 0 then .error .tooDeep
      else (plain (items (room - 1) true rest)).map fun found => (.list found.1, found.2) := by
  rw [value, next?_cons rfl]
  dsimp only
  rw [if_neg (by decide), if_neg (by decide), if_neg (by decide), if_neg (by decide),
    if_neg (by decide), if_pos rfl]
  split
  · rfl
  · cases items (room - 1) true rest <;> rfl

theorem plain_items_close (isFirst : Bool) (rest : List Char) :
    plain (items room isFirst (']' :: rest)) = .ok ([], rest) := by
  rw [items, next?_cons rfl]
  rfl

/-- What stands in front of an item: a comma, except in front of the first. -/
def separator (isFirst : Bool) : List Char :=
  if isFirst then [] else [',']

/-- An item is read behind its separator, and then the others. -/
theorem plain_items_cons (visible : isBlank first = false) (other : first ≠ ']') (isFirst : Bool)
    (rest : List Char) :
    plain (items room isFirst (separator isFirst ++ first :: rest)) =
      match plain (value room (first :: rest)) with
      | .error fault => .error fault
      | .ok (item, after) =>
          (plain (items room false after)).map fun found => (item :: found.1, found.2) := by
  cases isFirst with
  | true =>
      rw [separator, if_pos rfl, List.nil_append, items, next?_cons visible]
      dsimp only
      rw [if_neg other, if_pos rfl]
      cases value room (first :: rest) with
      | error fault => rfl
      | ok found =>
          dsimp only [plain, Except.map]
          cases items room false found.2.val <;> rfl
  | false =>
      rw [separator, if_neg Bool.false_ne_true, List.singleton_append, items, next?_cons rfl]
      dsimp only
      rw [if_neg (by decide), if_neg Bool.false_ne_true, if_pos rfl, next?_cons visible]
      dsimp only
      rw [if_neg other]
      cases value room (first :: rest) with
      | error fault => rfl
      | ok found =>
          dsimp only [plain, Except.map]
          cases items room false found.2.val <;> rfl

end Json

end PrefixArith
