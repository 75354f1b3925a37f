import Mathlib.Data.List.Forall2
import PrefixArith.Expr.Evaluation

/-!
# Replacing parts of expressions

A part of an expression is found by a path of indices. Evaluation looks at the heads of groups and of
every other member takes only the outcome, so a part at the end of a path that goes through no head
can be replaced by any expression of the same outcome, such as a number by the numeral of its value.
-/

namespace PrefixArith

namespace Expr

/-- The part at the end of a path, on which each index counts the members of a group from zero. -/
def part? : List Nat → Expr → Option Expr
  | [], expr => some expr
  | index :: path, group members =>
      match members[index]? with
      | none => none
      | some member => part? path member
  | _ :: _, _ => none

/-- The expression with another part at the end of a path. -/
def replace? (part : Expr) : List Nat → Expr → Option Expr
  | [], _ => some part
  | index :: path, group members =>
      match members[index]? with
      | none => none
      | some member =>
          (replace? part path member).map fun replaced => group (members.set index replaced)
  | _ :: _, _ => none

/-- A path that goes on leads into a member of a group. -/
theorem part?_cons_eq_some {index : Nat} {path : List Nat} {whole part : Expr}
    (inside : part? (index :: path) whole = some part) :
    ∃ members member, whole = group members ∧ members[index]? = some member ∧
      part? path member = some part := by
  cases whole with
  | number value => cases inside
  | operator op => cases inside
  | group members =>
      rw [part?] at inside
      split at inside
      · cases inside
      · next member found => exact ⟨members, member, rfl, found, inside⟩

theorem replace?_cons {part : Expr} {index : Nat} {path : List Nat} {members : List Expr}
    {member replaced : Expr} (found : members[index]? = some member)
    (inner : replace? part path member = some replaced) :
    replace? part (index :: path) (group members) = some (group (members.set index replaced)) := by
  simp only [replace?, found, inner, Option.map_some]

/-- A part put in its own place changes nothing. -/
theorem replace?_part {path : List Nat} {whole part : Expr} (inside : part? path whole = some part) :
    replace? part path whole = some whole := by
  induction path generalizing whole with
  | nil =>
      cases inside
      rfl
  | cons index path ih =>
      obtain ⟨members, member, rfl, found, inner⟩ := part?_cons_eq_some inside
      obtain ⟨bound, rfl⟩ := List.getElem?_eq_some_iff.mp found
      rw [replace?_cons found (ih inner), List.set_getElem_self]

/-! ## Outcomes that look the same -/

section Outcome

variable {α : Type} {view : Undefined → α}

/-- Expressions have the same value or faults that look the same. -/
def SameOutcome (view : Undefined → α) (left right : Expr) : Prop :=
  left.eval.mapError view = right.eval.mapError view

theorem mapError_map {β γ : Type} (outcome : Except Undefined β) (f : β → γ) :
    (outcome.map f).mapError view = (outcome.mapError view).map f := by
  cases outcome <;> rfl

theorem SameOutcome.cases {left right : Expr} (same : SameOutcome view left right) :
    (∃ value, left.eval = .ok value ∧ right.eval = .ok value) ∨
      ∃ fault other, left.eval = .error fault ∧ right.eval = .error other ∧
        view fault = view other := by
  unfold SameOutcome at same
  cases leftEval : left.eval with
  | ok value =>
      cases rightEval : right.eval with
      | ok other =>
          rw [leftEval, rightEval] at same
          cases same
          exact .inl ⟨value, rfl, rfl⟩
      | error other =>
          rw [leftEval, rightEval] at same
          cases same
  | error fault =>
      cases rightEval : right.eval with
      | ok other =>
          rw [leftEval, rightEval] at same
          cases same
      | error other =>
          rw [leftEval, rightEval] at same
          exact .inr ⟨fault, other, rfl, rfl, Except.error.inj same⟩

/-- Members with the same outcomes have the same values or the same first fault. -/
theorem evalAll_congr {lefts rights : List Expr}
    (same : List.Forall₂ (SameOutcome view) lefts rights) :
    (evalAll lefts).mapError view = (evalAll rights).mapError view := by
  induction same with
  | nil => rfl
  | @cons left right lefts rights head tail ih =>
      rw [evalAll, evalAll]
      rcases head.cases with ⟨value, leftEval, rightEval⟩ | ⟨_, _, leftEval, rightEval, looks⟩
      · rw [leftEval, rightEval]
        simp only [mapError_map, ih]
      · rw [leftEval, rightEval]
        exact congrArg Except.error looks

/-- Operands with the same outcomes are combined to the same result or have the same first fault. -/
theorem accumulate_congr (op : Operator) (result : Option Binary64) {lefts rights : List Expr}
    (same : List.Forall₂ (SameOutcome view) lefts rights) :
    (accumulate op result lefts).mapError view = (accumulate op result rights).mapError view := by
  induction same generalizing result with
  | nil => rfl
  | @cons left right lefts rights head tail ih =>
      rw [accumulate, accumulate]
      rcases head.cases with ⟨value, leftEval, rightEval⟩ | ⟨_, _, leftEval, rightEval, looks⟩
      · rw [leftEval, rightEval]
        cases value with
        | number operand => exact ih (some (op.extend result operand))
        | list items => rfl
      · rw [leftEval, rightEval]
        exact congrArg Except.error looks

/-- The members behind the head of a group count only through their outcomes. -/
theorem SameOutcome.group (head : Expr) {lefts rights : List Expr}
    (same : List.Forall₂ (SameOutcome view) lefts rights) :
    SameOutcome view (group (head :: lefts)) (group (head :: rights)) := by
  unfold SameOutcome
  cases head with
  | number value =>
      rw [eval, eval, mapError_map, mapError_map, evalAll_congr same]
  | operator op =>
      rw [eval, eval, same.length_eq]
      split
      · rfl
      · rw [mapError_map, mapError_map, accumulate_congr op op.start same]
  | group members => rw [eval, eval]

/-- Replacing one of several expressions by others of the same outcome keeps all outcomes. -/
theorem forall₂_set (exprs : List Expr) (index : Nat) {left right : Expr}
    (same : SameOutcome view left right) :
    List.Forall₂ (SameOutcome view) (exprs.set index left) (exprs.set index right) := by
  induction exprs generalizing index with
  | nil => exact .nil
  | cons first rest ih =>
      cases index with
      | zero => exact .cons same (List.forall₂_same.mpr fun _ _ => rfl)
      | succ index => exact .cons rfl (ih index)

/-- Parts with the same outcome, at the end of a path through no head, give wholes with the same. -/
theorem exists_replace?_same {path : List Nat} {whole part : Expr}
    (inside : part? path whole = some part) (apart : 0 ∉ path) {left right : Expr}
    (same : SameOutcome view left right) :
    ∃ withLeft withRight, replace? left path whole = some withLeft ∧
      replace? right path whole = some withRight ∧ SameOutcome view withLeft withRight := by
  induction path generalizing whole with
  | nil => exact ⟨left, right, rfl, rfl, same⟩
  | cons index path ih =>
      rw [List.mem_cons, not_or] at apart
      obtain ⟨notHead, apart⟩ := apart
      obtain ⟨members, member, rfl, found, inner⟩ := part?_cons_eq_some inside
      obtain ⟨leftMember, rightMember, leftInner, rightInner, sameMember⟩ := ih inner apart
      refine ⟨_, _, replace?_cons found leftInner, replace?_cons found rightInner, ?_⟩
      obtain ⟨behind, rfl⟩ := Nat.exists_eq_succ_of_ne_zero (Ne.symm notHead)
      cases members with
      | nil => cases found
      | cons head rest => exact .group head (forall₂_set rest behind sameMember)

end Outcome

theorem sameOutcome_id (left right : Expr) :
    SameOutcome id left right ↔ left.eval = right.eval := by
  unfold SameOutcome
  cases left.eval <;> cases right.eval <;> simp [Except.mapError]

/--
Evaluation is a congruence away from the heads of groups. Expressions with the same value or the same
fault, put at the end of a path through no head, give wholes with the same value or the same fault;
and where the two faults only look the same, such as in their messages, so do those of the wholes. A
part whose value is a number can therefore be replaced by that number without a change of outcome.
-/
theorem eval_replace? {path : List Nat} {whole part : Expr}
    (inside : part? path whole = some part) (apart : 0 ∉ path) :
    (∀ left right : Expr, left.eval = right.eval →
      ∃ withLeft withRight, replace? left path whole = some withLeft ∧
        replace? right path whole = some withRight ∧ withLeft.eval = withRight.eval) ∧
    (∀ {α : Type} (view : Undefined → α) (left right : Expr),
      left.eval.mapError view = right.eval.mapError view →
        ∃ withLeft withRight, replace? left path whole = some withLeft ∧
          replace? right path whole = some withRight ∧
            withLeft.eval.mapError view = withRight.eval.mapError view) ∧
    ∀ value, part.eval = .ok (.number value) →
      ∃ folded, replace? (number value) path whole = some folded ∧ folded.eval = whole.eval := by
  have congruent (left right : Expr) (same : left.eval = right.eval) :
      ∃ withLeft withRight, replace? left path whole = some withLeft ∧
        replace? right path whole = some withRight ∧ withLeft.eval = withRight.eval := by
    obtain ⟨withLeft, withRight, leftPut, rightPut, outcomes⟩ :=
      exists_replace?_same inside apart ((sameOutcome_id left right).mpr same)
    exact ⟨withLeft, withRight, leftPut, rightPut, (sameOutcome_id _ _).mp outcomes⟩
  refine ⟨congruent, fun view left right same => exists_replace?_same inside apart same, ?_⟩
  intro value isNumber
  have same : part.eval = (number value).eval := by rw [isNumber, eval]
  obtain ⟨withPart, folded, partPut, put, outcomes⟩ := congruent part (number value) same
  rw [replace?_part inside] at partPut
  cases partPut
  exact ⟨folded, put, outcomes.symm⟩

theorem eval_replace?_in_list :
    let negative := number (.signed true .zero)
    let part := group [operator .max, number .zero, negative]
    let whole := group [number .zero, group [operator .min, number .zero, part]]
    let left := group [operator .subtract, negative]
    let right := group [operator .subtract, group []]
    part? [1, 2] whole = some part ∧ 0 ∉ [1, 2] ∧
      left.eval = right.eval ∧
      (∃ withLeft withRight, replace? left [1, 2] whole = some withLeft ∧
        replace? right [1, 2] whole = some withRight ∧ withLeft.eval = withRight.eval) ∧
      part.eval = .ok (.number (.signed true .zero)) ∧
      ∃ folded, replace? negative [1, 2] whole = some folded ∧ folded.eval = whole.eval := by
  intro negative part whole left right
  have inside : part? [1, 2] whole = some part := rfl
  have apart : 0 ∉ [1, 2] := by decide
  have same : left.eval = right.eval := rfl
  have isNumber : part.eval = .ok (.number (.signed true .zero)) := rfl
  obtain ⟨congruent, -, folds⟩ := eval_replace? inside apart
  exact ⟨inside, apart, same, congruent left right same, isNumber, folds _ isNumber⟩

-- At a head the law fails: an application there has no value, the number of its value heads a list.
example :
    (group [operator .max, number .zero]).eval = (number .zero).eval ∧
      (group [group [operator .max, number .zero]]).eval =
        .error (.unknownHead (group [operator .max, number .zero])) ∧
      (group [number .zero]).eval = .ok (.list [.number .zero]) :=
  ⟨rfl, rfl, rfl⟩

end Expr

end PrefixArith
