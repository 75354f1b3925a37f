import PrefixArith.Expr.Evaluation

/-!
# Shapes

A shape is what remains of a value when its numbers are forgotten. The structure of an expression
alone decides whether the expression has a value and which shape the value has: no number in it,
infinite or not, ever changes how far evaluation gets.
-/

namespace PrefixArith

/-- The shape of a value. -/
inductive Shape where
  | number
  | list (items : List Shape)

namespace Value

mutual

/-- The shape of a value: its numbers forgotten, its lists kept. -/
def shape : Value → Shape
  | number _ => .number
  | list items => .list (shapes items)

/-- The shapes of several values. -/
def shapes : List Value → List Shape
  | [] => []
  | first :: rest => shape first :: shapes rest

end

end Value

namespace Expr

mutual

/--
The shape that the structure of an expression gives it, if any. An application is a number if it has
enough operands and each of them is one, and a group that a number heads is the list of its members.
-/
def shape? : Expr → Option Shape
  | number _ => some .number
  | operator _ => none
  | group [] => none
  | group (operator op :: operands) =>
      if op.arity ≤ operands.length && areNumbers operands then some .number else none
  | group (number _ :: rest) => (shapes? rest).map fun shapes => .list (.number :: shapes)
  | group (group _ :: _) => none

/-- The shapes of several expressions, if each of them has one. -/
def shapes? : List Expr → Option (List Shape)
  | [] => some []
  | first :: rest =>
      match shape? first with
      | some shape => (shapes? rest).map (shape :: ·)
      | none => none

/-- Whether the shape of each of several expressions is that of a number. -/
def areNumbers : List Expr → Bool
  | [] => true
  | first :: rest =>
      match shape? first with
      | some .number => areNumbers rest
      | _ => false

end

mutual

/-- An expression with each number replaced by zero. -/
def outline : Expr → Expr
  | number _ => number .zero
  | operator op => operator op
  | group members => group (outlines members)

/-- Several expressions with each number replaced by zero. -/
def outlines : List Expr → List Expr
  | [] => []
  | first :: rest => outline first :: outlines rest

end

/-! ## Evaluation keeps to shapes -/

mutual

/-- The shape of the value of an expression is the shape of the expression, if there is either. -/
theorem eval_shape (expr : Expr) : expr.eval.toOption.map Value.shape = expr.shape? := by
  match expr with
  | number value => rw [eval, shape?]; rfl
  | operator op => rw [eval, shape?]; rfl
  | group [] => rw [eval, shape?]; rfl
  | group (operator op :: operands) =>
      rw [eval, shape?]
      by_cases few : operands.length < op.arity
      · rw [if_pos few, decide_eq_false (Nat.not_le.mpr few)]
        rfl
      · have nonempty : operands ≠ [] := by
          rintro rfl
          cases op <;> exact few (by decide)
        have numbers := accumulate_isSome op op.start operands (.inr nonempty)
        rw [if_neg few, decide_eq_true (Nat.not_lt.mp few), Bool.true_and, ← numbers]
        cases accumulate op op.start operands <;> rfl
  | group (number value :: rest) =>
      have items := evalAll_shapes rest
      rw [eval, shape?, ← items]
      cases evalAll rest <;> rfl
  | group (group members :: rest) => rw [eval, shape?]; rfl

/-- The shapes of the values of several expressions are those of the expressions. -/
theorem evalAll_shapes (exprs : List Expr) :
    (evalAll exprs).toOption.map Value.shapes = shapes? exprs := by
  match exprs with
  | [] => rw [evalAll, shapes?]; rfl
  | first :: rest =>
      have head := eval_shape first
      have tail := evalAll_shapes rest
      rw [evalAll, shapes?, ← head, ← tail]
      cases first.eval with
      | error fault => rfl
      | ok value => cases evalAll rest <;> rfl

/--
Once it has a result or an operand is to come, an operator gets to a result exactly when all
operands to come are numbers.
-/
theorem accumulate_isSome (op : Operator) (result : Option Binary64) (operands : List Expr)
    (some : result.isSome = true ∨ operands ≠ []) :
    (accumulate op result operands).toOption.isSome = areNumbers operands := by
  match operands with
  | [] =>
      obtain ⟨value, rfl⟩ := Option.isSome_iff_exists.mp (some.resolve_right nofun)
      rw [accumulate, areNumbers]
      rfl
  | first :: rest =>
      have head := eval_shape first
      rw [accumulate, areNumbers, ← head]
      cases first.eval with
      | error fault => rfl
      | ok value =>
          cases value with
          | number operand => exact accumulate_isSome op _ rest (.inl rfl)
          | list items => rfl

end

/-! ## Numbers do not matter -/

mutual

/-- The shape of an expression is that of its outline. -/
theorem shape?_outline (expr : Expr) : expr.outline.shape? = expr.shape? := by
  match expr with
  | number value => rw [outline, shape?, shape?]
  | operator op => rw [outline]
  | group [] => rw [outline, outlines]
  | group (operator op :: operands) =>
      rw [outline, outlines, outline, shape?, shape?, areNumbers_outlines, length_outlines]
  | group (number value :: rest) =>
      rw [outline, outlines, outline, shape?, shape?, shapes?_outlines]
  | group (group members :: rest) => rw [outline, outlines, outline, shape?, shape?]

theorem shapes?_outlines (exprs : List Expr) : shapes? (outlines exprs) = shapes? exprs := by
  match exprs with
  | [] => rw [outlines]
  | first :: rest => rw [outlines, shapes?, shapes?, shape?_outline, shapes?_outlines]

theorem areNumbers_outlines (exprs : List Expr) :
    areNumbers (outlines exprs) = areNumbers exprs := by
  match exprs with
  | [] => rw [outlines]
  | first :: rest => rw [outlines, areNumbers, areNumbers, shape?_outline, areNumbers_outlines]

theorem length_outlines (exprs : List Expr) : (outlines exprs).length = exprs.length := by
  match exprs with
  | [] => rw [outlines]
  | first :: rest => rw [outlines, List.length_cons, List.length_cons, length_outlines]

end

/--
The structure of an expression decides its evaluation. It is a number, or a list, exactly when the
expression has that shape, and the value has the same shape all the way down; it fails exactly when
the expression has none. An expression that differs in nothing but its numbers fails or gets to a
value of the same shape with it.
-/
theorem eval_decided (expr : Expr) :
    ((∃ number, expr.eval = .ok (.number number)) ↔ expr.shape? = some .number) ∧
    ((∃ items, expr.eval = .ok (.list items)) ↔ ∃ shapes, expr.shape? = some (.list shapes)) ∧
    (∀ value, expr.eval = .ok value → expr.shape? = some value.shape) ∧
    ((∃ fault, expr.eval = .error fault) ↔ expr.shape? = none) ∧
    ∀ other : Expr, other.outline = expr.outline →
      other.eval.toOption.map Value.shape = expr.eval.toOption.map Value.shape := by
  have same : ∀ other : Expr, other.outline = expr.outline →
      other.eval.toOption.map Value.shape = expr.eval.toOption.map Value.shape := by
    intro other alike
    calc
      other.eval.toOption.map Value.shape = other.outline.shape? := by
        rw [eval_shape, shape?_outline]
      _ = expr.outline.shape? := by rw [alike]
      _ = expr.eval.toOption.map Value.shape := by rw [eval_shape, shape?_outline]
  refine ⟨?_, ?_, ?_, ?_, same⟩
  all_goals
    rw [← eval_shape expr]
    cases expr.eval with
    | error fault => simp [Except.toOption]
    | ok value => cases value <;> simp [Except.toOption, Value.shape]

end Expr

end PrefixArith
