import Mathlib.Data.List.Basic
import PrefixArith.Proofs.Numeral
import PrefixArith.Proofs.Numeral.Language
import PrefixArith.Value.Basic

/-!
# The plain text of a value is unambiguous

A finite double is read back from its plain text, and the words for the others are no numerals, so
different doubles have different texts. None of them holds a bracket or a comma: the text of a list
can be cut in one way only, and it determines the list.
-/

namespace PrefixArith

namespace Numeral

/-- A bracket of a list or the comma behind an item. -/
def isListMark (character : Char) : Bool :=
  character == '[' || character == ',' || character == ']'

theorem isCharacter_of_isListMark {character : Char} (mark : isListMark character = true) :
    isCharacter character = false := by
  simp only [isListMark, Bool.or_eq_true, beq_iff_eq] at mark
  rcases mark with (rfl | rfl) | rfl <;> decide

/-- No word for a double that is not finite has a list mark. -/
theorem nonFinites_no_mark : ∀ pair ∈ nonFinites, pair.2.any isListMark = false := by
  decide

/-- The plain text of a double has no list mark. -/
theorem plain_text_no_mark (value : Binary64) :
    ∀ character ∈ plain.text value, isListMark character = false := by
  cases finite : value.isFinite with
  | true =>
      intro character member
      by_contra mark
      have foreign := isCharacter_of_isListMark (Bool.eq_true_of_not_eq_false mark)
      have read := read?_plain_text finite
      rw [read?, value?_eq_none_of_mem member foreign] at read
      cases read
  | false => simpa using List.any_eq_false.mp (nonFinites_no_mark _ (mem_nonFinites finite))

end Numeral

namespace Value

open Numeral (isListMark plain)

/-- A rest in front of which a number ends: nothing, or a bracket or comma and what follows it. -/
def EndsItem (rest : List Char) : Prop :=
  ∀ next ∈ rest.head?, isListMark next = true

/-- The texts of items in a list, each behind a comma and a space unless it is the first. -/
def itemTexts : Bool → List Value → List Char
  | _, [] => []
  | isFirst, first :: rest =>
      (if isFirst then [] else [',', ' ']) ++ first.text ++ itemTexts false rest

theorem text_list (items : List Value) :
    (list items).text = '[' :: (itemTexts true items ++ [']']) := by
  have inside (first : Value) (rest : List Value) :
      [',', ' '].intercalate (layoutTexts plain [',', ' '] (first :: rest)) =
        first.text ++ itemTexts false rest := by
    induction rest generalizing first with
    | nil => simp [layoutTexts, itemTexts, text]
    | cons second rest ih =>
        rw [layoutTexts, layoutTexts, List.intercalate_cons_cons, ← layoutTexts, ih]
        simp [itemTexts, text]
  rw [text, layoutText]
  cases items with
  | nil => rfl
  | cons first rest =>
      rw [inside, itemTexts]
      rfl

theorem endsItem_itemTexts (items : List Value) (rest : List Char) :
    EndsItem (itemTexts false items ++ ']' :: rest) := by
  cases items with
  | nil =>
      intro next starts
      obtain rfl := Option.some.inj starts
      rfl
  | cons first others =>
      intro next starts
      obtain rfl := Option.some.inj starts
      rfl

/-- The text of a number starts with no bracket or comma. -/
theorem exists_number_text_cons (value : Binary64) :
    ∃ first rest, (number value).text = first :: rest ∧ isListMark first = false := by
  obtain ⟨first, rest, text⟩ := List.exists_cons_of_ne_nil (Numeral.plain_text_ne_nil value)
  exact ⟨first, rest, text,
    Numeral.plain_text_no_mark value first (text ▸ List.mem_cons_self)⟩

theorem number_text_append_ne (value : Binary64) (items : List Value) (rest otherRest : List Char) :
    (number value).text ++ rest ≠ (list items).text ++ otherRest := by
  obtain ⟨first, others, text, other⟩ := exists_number_text_cons value
  rw [text, text_list]
  intro same
  obtain rfl := (List.cons.inj same).1
  cases other

/-- Where a list ends, no item of it is left. -/
theorem itemTexts_cons_append_ne (isFirst : Bool) (first : Value) (others : List Value)
    (rest otherRest : List Char) :
    itemTexts isFirst (first :: others) ++ otherRest ≠ ']' :: rest := by
  intro same
  cases isFirst with
  | false => cases (List.cons.inj same).1
  | true =>
      rw [itemTexts, if_pos rfl, List.nil_append] at same
      cases first with
      | list items =>
          rw [text_list] at same
          cases (List.cons.inj same).1
      | number value =>
          obtain ⟨character, _, text, other⟩ := exists_number_text_cons value
          rw [text] at same
          obtain rfl := (List.cons.inj same).1
          cases other

/-- Words without brackets and commas can be told from rests that start with one. -/
theorem eq_of_word_append {word other rest otherRest : List Char}
    (isWord : ∀ character ∈ word, isListMark character = false)
    (isOther : ∀ character ∈ other, isListMark character = false)
    (ends : EndsItem rest) (otherEnds : EndsItem otherRest)
    (same : word ++ rest = other ++ otherRest) : word = other ∧ rest = otherRest := by
  rcases List.append_eq_append_iff.mp same with ⟨extra, rfl, rfl⟩ | ⟨extra, rfl, rfl⟩
  · cases extra with
    | nil => simp
    | cons next extra =>
        have mark := ends next rfl
        rw [isOther next (by simp)] at mark
        cases mark
  · cases extra with
    | nil => simp
    | cons next extra =>
        have mark := otherEnds next rfl
        rw [isWord next (by simp)] at mark
        cases mark

mutual

/-- The text of a value determines it and where the text ends, if what follows cannot go on with it. -/
theorem eq_of_text_append (left right : Value) {rest otherRest : List Char} (ends : EndsItem rest)
    (otherEnds : EndsItem otherRest) (same : left.text ++ rest = right.text ++ otherRest) :
    left = right ∧ rest = otherRest := by
  match left, right with
  | number left, number right =>
      obtain ⟨texts, rests⟩ := eq_of_word_append (Numeral.plain_text_no_mark left)
        (Numeral.plain_text_no_mark right) ends otherEnds same
      exact ⟨congrArg number (Numeral.eq_of_plain_text_eq texts), rests⟩
  | list lefts, list rights =>
      rw [text_list, text_list] at same
      simp only [List.cons_append, List.append_assoc, List.nil_append] at same
      obtain ⟨items, rests⟩ := eq_of_itemTexts_append true lefts rights (List.cons.inj same).2
      exact ⟨congrArg list items, rests⟩
  | number left, list rights => exact absurd same (number_text_append_ne left rights _ _)
  | list lefts, number right => exact absurd same.symm (number_text_append_ne right lefts _ _)

/-- The texts of the items of a list determine them, up to the bracket that closes the list. -/
theorem eq_of_itemTexts_append (isFirst : Bool) (lefts rights : List Value)
    {rest otherRest : List Char}
    (same : itemTexts isFirst lefts ++ ']' :: rest = itemTexts isFirst rights ++ ']' :: otherRest) :
    lefts = rights ∧ rest = otherRest := by
  match lefts, rights with
  | [], [] => exact ⟨rfl, (List.cons.inj same).2⟩
  | [], right :: rights =>
      exact absurd same.symm (itemTexts_cons_append_ne isFirst right rights rest _)
  | left :: lefts, [] => exact absurd same (itemTexts_cons_append_ne isFirst left lefts otherRest _)
  | left :: lefts, right :: rights =>
      simp only [itemTexts, List.append_assoc, List.append_cancel_left_eq] at same
      obtain ⟨rfl, others⟩ := eq_of_text_append left right (endsItem_itemTexts lefts rest)
        (endsItem_itemTexts rights otherRest) same
      obtain ⟨rfl, rests⟩ := eq_of_itemTexts_append false lefts rights others
      exact ⟨rfl, rests⟩

end

/--
Two values with the same plain text are the same: the same lists in the same places, and in them the
same doubles, zeros with their signs.
-/
theorem text_eq_iff (left right : Value) : left.text = right.text ↔ left = right := by
  constructor
  · intro same
    exact (@eq_of_text_append left right [] [] nofun nofun (by simpa using same)).1
  · rintro rfl
    rfl

end Value

end PrefixArith
