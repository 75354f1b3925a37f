import PrefixArith.Expr.Evaluation
import PrefixArith.Proofs.Binary64.Addition

/-!
# Nested applications of one operator

An application whose first operand is an application of the same operator comes to the same outcome
as one application to the operands of both. The inner operands are looked at first on either side,
so the first fault is the same. The inner result starts the outer one over, which a sum does by
adding it to zero; this gives the inner result back, since no sum is negative zero.
-/

namespace PrefixArith

namespace Operator

theorem arity_pos (op : Operator) : 0 < op.arity := by
  cases op <;> decide

end Operator

namespace Expr

variable {op : Operator}

/-- Operands are combined in two goes where the first has a result to hand on to the second. -/
theorem accumulate_append_eq_bind (op : Operator) {result : Option Binary64} {before : List Expr}
    (some : result.isSome = true ∨ before ≠ []) (after : List Expr) :
    accumulate op result (before ++ after) =
      (accumulate op result before).bind fun value => accumulate op (.some value) after := by
  induction before generalizing result with
  | nil =>
      obtain ⟨value, rfl⟩ := Option.isSome_iff_exists.mp (some.resolve_right nofun)
      rw [List.nil_append, accumulate]
      rfl
  | cons first before ih =>
      rw [List.cons_append, accumulate, accumulate]
      cases first.eval with
      | error fault => rfl
      | ok value =>
          cases value with
          | list items => rfl
          | number operand => exact ih (.inl rfl)

/-- A sum that does not start from negative zero does not get to it. -/
theorem accumulate_add_ne_negativeZero {start : Binary64} (other : start ≠ .negativeZero)
    {operands : List Expr} {value : Binary64}
    (sum : accumulate .add (some start) operands = .ok value) : value ≠ .negativeZero := by
  induction operands generalizing start with
  | nil =>
      rw [accumulate] at sum
      cases sum
      exact other
  | cons first operands ih =>
      rw [accumulate] at sum
      cases outcome : first.eval with
      | error fault => rw [outcome] at sum; cases sum
      | ok result =>
          rw [outcome] at sum
          cases result with
          | list items => cases sum
          | number operand => exact ih (Binary64.add_ne_negativeZero other operand) sum

/-- The result of an operator is left as it is where the operator starts over with it. -/
theorem extend_start {operands : List Expr} {value : Binary64}
    (result : accumulate op op.start operands = .ok value) : op.extend op.start value = value := by
  cases op with
  | add =>
      have zero : Binary64.zero ≠ .negativeZero := by decide
      exact Binary64.zero_add (accumulate_add_ne_negativeZero zero result)
  | subtract => rfl
  | max => rfl
  | min => rfl

/-- An application to enough operands combines them. -/
theorem eval_group_operator {operands : List Expr} (enough : op.arity ≤ operands.length) :
    (group (operator op :: operands)).eval = (accumulate op op.start operands).map .number := by
  rw [eval, if_neg (Nat.not_lt.mpr enough)]

/-- No sum is negative zero. -/
theorem eval_add_ne_negativeZero (operands : List Expr) :
    (group (operator .add :: operands)).eval ≠ .ok (.number .negativeZero) := by
  have zero : Binary64.zero ≠ .negativeZero := by decide
  rw [eval]
  split
  · nofun
  · cases sum : accumulate .add Operator.add.start operands with
    | error fault => nofun
    | ok value =>
        intro isZero
        obtain rfl : value = .negativeZero := Value.number.inj (Except.ok.inj isZero)
        exact accumulate_add_ne_negativeZero zero sum rfl

/--
A nested application of the same operator in the place of the first operand can be flattened: both
sides have the same fault or the same value, to the sign of a zero. And whatever its operands are,
no sum is negative zero.
-/
theorem eval_flatten (op : Operator) {inner outer : List Expr}
    (innerEnough : op.arity ≤ inner.length) (outerEnough : op.arity ≤ 1 + outer.length) :
    (group (operator op :: group (operator op :: inner) :: outer)).eval =
        (group (operator op :: (inner ++ outer))).eval ∧
      ∀ operands, (group (operator .add :: operands)).eval ≠ .ok (.number .negativeZero) := by
  have some : inner ≠ [] := by
    rintro rfl
    exact absurd op.arity_pos (Nat.not_lt.mpr innerEnough)
  have allEnough : op.arity ≤ (inner ++ outer).length := by
    rw [List.length_append]
    omega
  have nestedEnough : op.arity ≤ (group (operator op :: inner) :: outer).length := by
    rw [List.length_cons]
    omega
  refine ⟨?_, eval_add_ne_negativeZero⟩
  rw [eval_group_operator nestedEnough, eval_group_operator allEnough,
    accumulate_append_eq_bind op (.inr some), accumulate, eval_group_operator innerEnough]
  cases result : accumulate op op.start inner with
  | error fault => rfl
  | ok value =>
      have again := extend_start result
      simp only [Except.map, Value.operandOf, Except.bind, again]

theorem eval_flatten_negative_zeros :
    let negative := number .negativeZero
    Operator.add.arity ≤ [negative].length ∧ Operator.add.arity ≤ 1 + [negative].length ∧
      (group [operator .add, group [operator .add, negative], negative]).eval =
        (group [operator .add, negative, negative]).eval ∧
      ∀ operands, (group (operator .add :: operands)).eval ≠ .ok (.number .negativeZero) := by
  intro negative
  have innerEnough : Operator.add.arity ≤ [negative].length := by decide
  have outerEnough : Operator.add.arity ≤ 1 + [negative].length := by decide
  exact ⟨innerEnough, outerEnough, eval_flatten .add innerEnough outerEnough⟩

end Expr

end PrefixArith
