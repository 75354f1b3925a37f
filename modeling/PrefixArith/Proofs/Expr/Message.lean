import PrefixArith.Expr.Evaluation
import PrefixArith.Expr.Malformed
import PrefixArith.Proofs.Expr.RoundTrip

/-!
# Messages name the fault

A message about an expression without a value names the fault entirely: the operator with its arity
and the number of operands that it was given, or the expression that stands in the wrong place. A
message about a text that is no expression names the fault and its position, but for an unknown atom,
which is shown without one.
-/

namespace PrefixArith

/-! ## Letters and numbers of a message -/

namespace Text

theorem getElem?_append {front rest : String} {index : Nat} {letter : Char}
    (stands : front.toList[index]? = some letter) :
    (front ++ rest).toList[index]? = some letter := by
  obtain ⟨inside, -⟩ := List.getElem?_eq_some_iff.mp stands
  rw [String.toList_append, List.getElem?_append_left inside, stands]

theorem toString_injective {left right : Nat} (same : toString left = toString right) :
    left = right := by
  rw [Nat.toString_eq_ofList_toDigits, Nat.toString_eq_ofList_toDigits] at same
  exact Decimal.digits_injective (String.ofList_injective same)

theorem isDigit_of_mem_toString {number : Nat} {character : Char}
    (member : character ∈ (toString number).toList) : character.isDigit = true := by
  rw [Nat.toString_eq_ofList_toDigits, String.toList_ofList] at member
  exact Nat.isDigit_of_mem_toDigits (by decide) (by decide) member

/-- Digits can be told from a text before them that ends in something else. -/
theorem eq_of_append_digits {front other digits otherDigits : List Char}
    (areDigits : ∀ character ∈ digits, character.isDigit = true)
    (areOther : ∀ character ∈ otherDigits, character.isDigit = true)
    (ends : ∀ last ∈ front.getLast?, last.isDigit = false)
    (otherEnds : ∀ last ∈ other.getLast?, last.isDigit = false)
    (same : front ++ digits = other ++ otherDigits) : front = other ∧ digits = otherDigits := by
  rcases List.append_eq_append_iff.mp same with ⟨extra, rfl, rfl⟩ | ⟨extra, rfl, rfl⟩
  · rcases List.eq_nil_or_concat extra with rfl | ⟨start, last, rfl⟩
    · simp
    · have digit := areDigits last (by simp)
      rw [otherEnds last (by simp)] at digit
      cases digit
  · rcases List.eq_nil_or_concat extra with rfl | ⟨start, last, rfl⟩
    · simp
    · have digit := areOther last (by simp)
      rw [ends last (by simp)] at digit
      cases digit

/-- A number behind a space can be told from what stands before it. -/
theorem append_toString_inj {front other space : String} {left right : Nat}
    (spaced : space.toList.getLast? = some ' ') :
    front ++ space ++ toString left = other ++ space ++ toString right ↔
      front = other ∧ left = right := by
  have ends (text : String) : ∀ last ∈ (text ++ space).toList.getLast?, last.isDigit = false := by
    rw [String.toList_append, List.getLast?_append, spaced]
    rintro _ ⟨⟩
    rfl
  constructor
  · intro same
    have characters := congrArg String.toList same
    rw [String.toList_append, @String.toList_append (other ++ space)] at characters
    obtain ⟨fronts, numbers⟩ := eq_of_append_digits (fun _ => isDigit_of_mem_toString)
      (fun _ => isDigit_of_mem_toString) (ends front) (ends other) characters
    exact ⟨(String.append_left_inj space).mp (String.toList_injective fronts),
      toString_injective (String.toList_injective numbers)⟩
  · rintro ⟨rfl, rfl⟩
    rfl

end Text

/-! ## Texts that are no expressions -/

namespace Malformed

theorem structureMessage_inj {left right : String} {position other : Nat} :
    structureMessage left position = structureMessage right other ↔
      left = right ∧ position = other := by
  have spaced : " at position ".toList.getLast? = some ' ' := by decide
  exact (Text.append_toString_inj spaced).trans (and_congr_left' (String.append_right_inj _))

theorem first_letter_structureMessage (text : String) (position : Nat) :
    (structureMessage text position).toList[0]? = some 'S' := by
  have start : "Syntax error: ".toList[0]? = some 'S' := by decide
  exact Text.getElem?_append (Text.getElem?_append (Text.getElem?_append start))

/-- The first letter of a message tells whether it is about a token, an atom or the structure. -/
theorem first_letter (fault : Malformed) :
    fault.message.toList[0]? =
      some (match fault with
        | noToken => 'N'
        | unknownAtom _ _ => 'U'
        | _ => 'S') := by
  cases fault with
  | noToken => decide
  | unknownAtom text position =>
      exact @Text.getElem?_append "Unknown token: " _ 0 'U' (by decide)
  | unreadable position => exact first_letter_structureMessage _ position
  | unmatchedClosing position => exact first_letter_structureMessage _ position
  | unclosed position => exact first_letter_structureMessage _ position
  | notSingle count position => exact first_letter_structureMessage _ position
  | tooDeep limit position => exact first_letter_structureMessage _ position

/-- The letter that tells a fault: that of its kind, or else the third of what is said about it. -/
def letter : Malformed → Char
  | noToken => 'N'
  | unknownAtom _ _ => 'U'
  | unreadable _ => ' '
  | unmatchedClosing _ => 'e'
  | unclosed _ => 'c'
  | notSingle _ _ => 'p'
  | tooDeep _ _ => 's'

theorem letter_of_structure {fault : Malformed} {text : String} {position : Nat}
    (told : fault.message = structureMessage text position) :
    text.toList[2]? = some fault.letter := by
  have letters := fault.first_letter
  rw [told, first_letter_structureMessage] at letters
  cases fault with
  | noToken => cases letters
  | unknownAtom atom place => cases letters
  | unreadable place =>
      obtain ⟨rfl, -⟩ := structureMessage_inj.mp told
      exact (by decide : "no token can be read".toList[2]? = some ' ')
  | unmatchedClosing place =>
      obtain ⟨rfl, -⟩ := structureMessage_inj.mp told
      exact (by decide : "unexpected `)` without matching `(`".toList[2]? = some 'e')
  | unclosed place =>
      obtain ⟨rfl, -⟩ := structureMessage_inj.mp told
      exact (by decide : "unclosed `(`".toList[2]? = some 'c')
  | notSingle count place =>
      obtain ⟨rfl, -⟩ := structureMessage_inj.mp told
      exact @Text.getElem?_append "expected a single top-level expression, found " _ 2 'p'
        (by decide)
  | tooDeep limit place =>
      obtain ⟨rfl, -⟩ := structureMessage_inj.mp told
      have start : "nesting deeper than ".toList[2]? = some 's' := by decide
      exact Text.getElem?_append (Text.getElem?_append start)

theorem letter_eq_of_message_eq {left right : Malformed} (same : left.message = right.message) :
    left.letter = right.letter := by
  have letters := left.first_letter
  rw [same, right.first_letter] at letters
  have structural {text : String} {position : Nat}
      (told : left.message = structureMessage text position) : left.letter = right.letter :=
    Option.some.inj
      ((letter_of_structure told).symm.trans (letter_of_structure (same.symm.trans told)))
  cases left with
  | noToken =>
      cases right with
      | noToken => rfl
      | _ => cases letters
  | unknownAtom text position =>
      cases right with
      | unknownAtom other place => rfl
      | _ => cases letters
  | unreadable position => exact structural rfl
  | unmatchedClosing position => exact structural rfl
  | unclosed position => exact structural rfl
  | notSingle count position => exact structural rfl
  | tooDeep limit position => exact structural rfl

/-- The message names the fault and its position; only that of an unknown atom is left out. -/
theorem message_eq_iff {left right : Malformed} :
    left.message = right.message ↔
      left = right ∨ ∃ text position other,
        left = unknownAtom text position ∧ right = unknownAtom text other := by
  constructor
  · intro same
    have letters := letter_eq_of_message_eq same
    cases left with
    | noToken =>
        cases right with
        | noToken => exact .inl rfl
        | _ => cases letters
    | unknownAtom text position =>
        cases right with
        | unknownAtom other place =>
            rw [(String.append_right_inj _).mp same]
            exact .inr ⟨other, position, place, rfl, rfl⟩
        | _ => cases letters
    | unreadable position =>
        cases right with
        | unreadable other =>
            obtain ⟨-, rfl⟩ := structureMessage_inj.mp same
            exact .inl rfl
        | _ => cases letters
    | unmatchedClosing position =>
        cases right with
        | unmatchedClosing other =>
            obtain ⟨-, rfl⟩ := structureMessage_inj.mp same
            exact .inl rfl
        | _ => cases letters
    | unclosed position =>
        cases right with
        | unclosed other =>
            obtain ⟨-, rfl⟩ := structureMessage_inj.mp same
            exact .inl rfl
        | _ => cases letters
    | notSingle count position =>
        cases right with
        | notSingle other place =>
            obtain ⟨texts, rfl⟩ := structureMessage_inj.mp same
            rw [Text.toString_injective ((String.append_right_inj _).mp texts)]
            exact .inl rfl
        | _ => cases letters
    | tooDeep limit position =>
        cases right with
        | tooDeep other place =>
            obtain ⟨texts, rfl⟩ := structureMessage_inj.mp same
            have limits := (String.append_right_inj _).mp ((String.append_left_inj _).mp texts)
            rw [Text.toString_injective limits]
            exact .inl rfl
        | _ => cases letters
  · rintro (rfl | ⟨text, position, other, rfl, rfl⟩)
    · rfl
    · rfl

/-- Together with the position, the message tells all faults apart. -/
theorem notice_injective : Function.Injective notice := by
  intro left right same
  rcases message_eq_iff.mp (congrArg Notice.message same) with rfl | ⟨text, _, _, rfl, rfl⟩
  · rfl
  · rw [Option.some.inj (congrArg Notice.position? same)]

end Malformed

/-! ## Expressions without a value -/

namespace Expr

/-- The first letter of a description tells what is described: a leaf, a group or an empty one. -/
theorem first_letter (expr : Expr) :
    expr.describe.toList[0]? =
      some (match expr with
        | number _ => 'n'
        | operator _ => 'o'
        | group [] => 'e'
        | group (_ :: _) => 'g') := by
  match expr with
  | number value => exact @Text.getElem?_append "number " _ 0 'n' (by decide)
  | operator op =>
      have start : "operator `".toList[0]? = some 'o' := by decide
      exact Text.getElem?_append (Text.getElem?_append start)
  | group [] => decide
  | group (first :: rest) =>
      have start : "group `".toList[0]? = some 'g' := by decide
      exact Text.getElem?_append (Text.getElem?_append start)

/-- Different expressions have different descriptions. -/
theorem describe_injective : Function.Injective describe := by
  intro left right same
  have letters := left.first_letter
  rw [same, right.first_letter] at letters
  match left, right with
  | number left, number right =>
      have texts := String.ofList_injective ((String.append_right_inj _).mp same)
      rw [Numeral.eq_of_plain_text_eq texts]
  | operator left, operator right =>
      have symbols := (String.append_right_inj _).mp ((String.append_left_inj _).mp same)
      rw [Operator.symbol_injective symbols]
  | group [], group [] => rfl
  | group (left :: lefts), group (right :: rights) =>
      have texts := (String.append_right_inj _).mp ((String.append_left_inj _).mp same)
      exact text_injective (String.ofList_injective texts)
  | number _, operator _ => cases letters
  | number _, group [] => cases letters
  | number _, group (_ :: _) => cases letters
  | operator _, number _ => cases letters
  | operator _, group [] => cases letters
  | operator _, group (_ :: _) => cases letters
  | group [], number _ => cases letters
  | group [], operator _ => cases letters
  | group [], group (_ :: _) => cases letters
  | group (_ :: _), number _ => cases letters
  | group (_ :: _), operator _ => cases letters
  | group (_ :: _), group [] => cases letters

end Expr

namespace Undefined

/-- The fourth letter of a message tells the kind of the fault. -/
theorem Notice.fourth_letter (notice : Notice) :
    notice.message.toList[3]? =
      some (match notice with
        | insufficientOperands _ _ _ => ' '
        | unknownNodeType _ => 'n'
        | unexpectedNode _ => 'x'
        | expectedNumber _ => 'r') := by
  cases notice with
  | insufficientOperands operator required supplied =>
      have start : "Not sufficient operands to apply operator ".toList[3]? = some ' ' := by
        decide
      iterate 5 apply Text.getElem?_append
      exact start
  | unknownNodeType description =>
      exact @Text.getElem?_append "Unknown node type: " _ 3 'n' (by decide)
  | unexpectedNode description =>
      exact @Text.getElem?_append "Unexpected node: " _ 3 'x' (by decide)
  | expectedNumber operator =>
      have start : "Operand of ".toList[3]? = some 'r' := by decide
      exact Text.getElem?_append (Text.getElem?_append start)

theorem Notice.message_injective : Function.Injective message := by
  intro left right same
  have letters := left.fourth_letter
  rw [same, right.fourth_letter] at letters
  cases left with
  | insufficientOperands operator required supplied =>
      cases right with
      | insufficientOperands other otherRequired otherSupplied =>
          obtain ⟨fronts, rfl⟩ := (Text.append_toString_inj (by decide)).mp same
          obtain ⟨operators, rfl⟩ := (Text.append_toString_inj (by decide)).mp fronts
          rw [(String.append_right_inj _).mp operators]
      | _ => cases letters
  | unknownNodeType description =>
      cases right with
      | unknownNodeType other => rw [(String.append_right_inj _).mp same]
      | _ => cases letters
  | unexpectedNode description =>
      cases right with
      | unexpectedNode other => rw [(String.append_right_inj _).mp same]
      | _ => cases letters
  | expectedNumber operator =>
      cases right with
      | expectedNumber other =>
          rw [(String.append_right_inj _).mp ((String.append_left_inj _).mp same)]
      | _ => cases letters

theorem notice_injective : Function.Injective notice := by
  intro left right same
  cases left with
  | tooFewOperands op supplied =>
      cases right with
      | tooFewOperands other otherSupplied =>
          obtain ⟨symbols, -, rfl⟩ := Notice.insufficientOperands.inj same
          rw [Operator.symbol_injective symbols]
      | _ => cases same
  | unknownHead head =>
      cases right with
      | unknownHead other =>
          rw [Expr.describe_injective (Notice.unknownNodeType.inj same)]
      | _ => cases same
  | bareOperator op =>
      cases right with
      | bareOperator other =>
          have operators := Expr.describe_injective (Notice.unexpectedNode.inj same)
          rw [Expr.operator.inj operators]
      | _ => cases same
  | listOperand op =>
      cases right with
      | listOperand other => rw [Operator.symbol_injective (Notice.expectedNumber.inj same)]
      | _ => cases same

/--
A message about an expression without a value names the fault entirely: the operator, how many
operands it was given, the expression that is no head.
-/
theorem message_injective : Function.Injective message :=
  Notice.message_injective.comp notice_injective

end Undefined

end PrefixArith
