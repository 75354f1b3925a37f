import Mathlib.Data.Set.List
import PrefixArith.Expr.Evaluation

/-!
# Outcomes of expressions by rules

What an expression comes to, stated by rules that keep two stages of an application apart: first its
operands are looked at from left to right, and only when all of them are numbers does the operator
fold them. Evaluation, which folds while it looks, comes to the same value or to a fault of which the
same is told. The rules give faults in the words and counts in which they are told, so they also say
how operators and expressions are described.
-/

namespace PrefixArith

namespace Operator

/--
The left fold of numbers by an operator: a sum starts from zero, all others start from their first
number and have no result without one. The greatest and the least number so far are kept where they
compare strictly with the next one, and are replaced by it otherwise.
-/
def fold : Operator → List Binary64 → Option Binary64
  | add, values => some (values.foldl Binary64.add .zero)
  | subtract, [] => none
  | subtract, first :: rest => some (rest.foldl Binary64.sub first)
  | max, [] => none
  | max, first :: rest =>
      some (rest.foldl (fun result value => if value.less result then result else value) first)
  | min, [] => none
  | min, first :: rest =>
      some (rest.foldl (fun result value => if result.less value then result else value) first)

/-- An operator that has a result so far combines it with all numbers to come. -/
theorem foldl_extend_some (op : Operator) (result : Binary64) (values : List Binary64) :
    values.foldl (fun result value => some (op.extend result value)) (some result) =
      some (values.foldl op.combine result) := by
  induction values generalizing result with
  | nil => rfl
  | cons value values ih => exact ih (op.combine result value)

/-- The fold takes one number after the other, as an application does. -/
theorem fold_eq (op : Operator) (values : List Binary64) :
    op.fold values =
      values.foldl (fun result value => some (op.extend result value)) op.start := by
  cases op with
  | add => exact (foldl_extend_some add .zero values).symm
  | subtract =>
      cases values with
      | nil => rfl
      | cons first rest => exact (foldl_extend_some subtract first rest).symm
  | max =>
      cases values with
      | nil => rfl
      | cons first rest => exact (foldl_extend_some max first rest).symm
  | min =>
      cases values with
      | nil => rfl
      | cons first rest => exact (foldl_extend_some min first rest).symm

/-- As many numbers as the arity demands have a fold. -/
theorem exists_fold (op : Operator) {values : List Binary64} (enough : op.arity ≤ values.length) :
    ∃ result, op.fold values = some result := by
  cases values with
  | nil => cases op <;> cases enough
  | cons first rest => cases op <;> exact ⟨_, rfl⟩

end Operator

namespace Expr

/-! ## The rules -/

mutual

/--
An expression yields a value or what is told of a fault. In the rules for a member that fails nothing
is asked of the members after it, in the rule for an application with too few operands nothing of any
operand, and in the rules for a group at the head of a group nothing of what follows it.
-/
inductive Yields : Expr → Except Undefined.Notice Value → Prop where
  | number (value : Binary64) : Yields (number value) (.ok (.number value))
  | bareOperator (op : Operator) :
      Yields (operator op) (.error (.unexpectedNode ("operator `" ++ op.symbol ++ "`")))
  | emptyGroup : Yields (group []) (.error (.unknownNodeType "empty group"))
  | emptyHead (rest : List Expr) :
      Yields (group (group [] :: rest)) (.error (.unknownNodeType "empty group"))
  | groupHead (first : Expr) (members rest : List Expr) :
      Yields (group (group (first :: members) :: rest)) (.error (.unknownNodeType
        ("group `" ++ String.ofList (group (first :: members)).text ++ "`")))
  | tooFewOperands {op : Operator} {operands : List Expr} (few : operands.length < op.arity) :
      Yields (group (operator op :: operands))
        (.error (.insufficientOperands op.symbol op.arity operands.length))
  | failingOperand {op : Operator} {before after : List Expr} {operand : Expr}
      {values : List Binary64} {notice : Undefined.Notice}
      (enough : op.arity ≤ (before ++ operand :: after).length)
      (numbers : AllYield before (values.map .number)) (fails : Yields operand (.error notice)) :
      Yields (group (operator op :: (before ++ operand :: after))) (.error notice)
  | listOperand {op : Operator} {before after : List Expr} {operand : Expr}
      {values : List Binary64} {items : List Value}
      (enough : op.arity ≤ (before ++ operand :: after).length)
      (numbers : AllYield before (values.map .number)) (isList : Yields operand (.ok (.list items))) :
      Yields (group (operator op :: (before ++ operand :: after)))
        (.error (.expectedNumber op.symbol))
  | application {op : Operator} {operands : List Expr} {values : List Binary64} {result : Binary64}
      (enough : op.arity ≤ operands.length) (numbers : AllYield operands (values.map .number))
      (folds : op.fold values = some result) :
      Yields (group (operator op :: operands)) (.ok (.number result))
  | failingMember {head : Binary64} {rest before after : List Expr} {member : Expr}
      {values : List Value} {notice : Undefined.Notice}
      (split : number head :: rest = before ++ member :: after)
      (found : AllYield before values) (fails : Yields member (.error notice)) :
      Yields (group (number head :: rest)) (.error notice)
  | list {head : Binary64} {rest : List Expr} {values : List Value}
      (found : AllYield (number head :: rest) values) :
      Yields (group (number head :: rest)) (.ok (.list values))

/-- Several expressions yield a value each, in order. -/
inductive AllYield : List Expr → List Value → Prop where
  | nil : AllYield [] []
  | cons {first : Expr} {rest : List Expr} {value : Value} {values : List Value}
      (head : Yields first (.ok value)) (tail : AllYield rest values) :
      AllYield (first :: rest) (value :: values)

end

/-! ## Evaluation, stage by stage -/

/-- The members that a number heads are evaluated together with their head. -/
theorem eval_numberHead (head : Binary64) (rest : List Expr) :
    (group (number head :: rest)).eval = (evalAll (number head :: rest)).map .list := by
  rw [eval, evalAll, eval]
  cases evalAll rest <;> rfl

/-- Several expressions have values when the first one has and the others have. -/
theorem evalAll_cons_eq_ok {first : Expr} {rest : List Expr} {values : List Value}
    (found : evalAll (first :: rest) = .ok values) :
    ∃ value others, values = value :: others ∧ first.eval = .ok value ∧
      evalAll rest = .ok others := by
  rw [evalAll] at found
  cases head : first.eval with
  | error fault => rw [head] at found; cases found
  | ok value =>
      cases tail : evalAll rest with
      | error fault => rw [head, tail] at found; cases found
      | ok others => rw [head, tail] at found; cases found; exact ⟨value, others, rfl, rfl, rfl⟩

/-- Expressions that have values leave the outcome of all to the expressions after them. -/
theorem evalAll_append {before : List Expr} {values : List Value}
    (found : evalAll before = .ok values) (after : List Expr) :
    evalAll (before ++ after) = (evalAll after).map (values ++ ·) := by
  induction before generalizing values with
  | nil =>
      rw [evalAll] at found
      cases found
      rw [List.nil_append]
      cases evalAll after <;> rfl
  | cons first before ih =>
      obtain ⟨value, others, rfl, head, tail⟩ := evalAll_cons_eq_ok found
      rw [List.cons_append, evalAll, head, ih tail]
      cases evalAll after <;> rfl

/-- Operands that are numbers are combined one after the other before the operands after them. -/
theorem accumulate_append (op : Operator) {before : List Expr} {values : List Binary64}
    (numbers : evalAll before = .ok (values.map .number)) (result : Option Binary64)
    (after : List Expr) :
    accumulate op result (before ++ after) =
      accumulate op (values.foldl (fun result value => some (op.extend result value)) result)
        after := by
  induction before generalizing values result with
  | nil =>
      rw [evalAll] at numbers
      obtain rfl : values = [] := by simpa using Except.ok.inj numbers
      rfl
  | cons first before ih =>
      obtain ⟨value, others, shape, head, tail⟩ := evalAll_cons_eq_ok numbers
      obtain ⟨number, rest, rfl, rfl, rfl⟩ := List.map_eq_cons_iff.mp shape
      rw [List.cons_append, accumulate, head]
      exact ih tail (some (op.extend result number))

/-- The fold of all operands is the result of an application whose operands are numbers. -/
theorem accumulate_of_numbers {op : Operator} {operands : List Expr} {values : List Binary64}
    {result : Binary64} (numbers : evalAll operands = .ok (values.map .number))
    (folds : op.fold values = some result) : accumulate op op.start operands = .ok result := by
  have all := accumulate_append op numbers op.start []
  rw [List.append_nil, ← Operator.fold_eq, folds] at all
  rw [all, accumulate]

/-- Operands that evaluate to numbers each are evaluated together. -/
theorem evalAll_of_numbers {operands : List Expr} {values : List Binary64}
    (numbers : List.Forall₂ (fun operand value => operand.eval = .ok (.number value))
      operands values) :
    evalAll operands = .ok (values.map .number) := by
  induction numbers with
  | nil => rw [evalAll]; rfl
  | cons head tail ih => rw [evalAll, head, ih]; rfl

/-- An application whose operands evaluate to numbers has their fold for its value. -/
theorem eval_application {op : Operator} {operands : List Expr} {values : List Binary64}
    {result : Binary64}
    (numbers : List.Forall₂ (fun operand value => operand.eval = .ok (.number value))
      operands values)
    (enough : op.arity ≤ operands.length) (folds : op.fold values = some result) :
    (group (operator op :: operands)).eval = .ok (.number result) := by
  rw [eval, if_neg (Nat.not_lt.mpr enough),
    accumulate_of_numbers (evalAll_of_numbers numbers) folds]
  rfl

/-- The first operand that is no number is the fault of an application, whatever comes after it. -/
theorem accumulate_of_fault {op : Operator} {before after : List Expr} {bad : Expr}
    {values : List Binary64} {fault : Undefined}
    (numbers : evalAll before = .ok (values.map .number)) (fails : bad.operand op = .error fault) :
    accumulate op op.start (before ++ bad :: after) = .error fault := by
  rw [accumulate_append op numbers, accumulate]
  unfold operand at fails
  cases outcome : bad.eval with
  | error other => rw [outcome] at fails; exact fails
  | ok value => rw [outcome] at fails; simp only [fails]

/-! ## The rules hold of evaluation, and only they -/

/-- What is told keeps the values. -/
theorem eq_ok_of_told {α : Type} {result : Except Undefined α} {value : α}
    (told : result.mapError Undefined.notice = .ok value) : result = .ok value := by
  cases result with
  | error fault => cases told
  | ok other =>
      cases told
      rfl

theorem exists_fault_of_told {α : Type} {result : Except Undefined α} {notice : Undefined.Notice}
    (told : result.mapError Undefined.notice = .error notice) :
    ∃ fault, result = .error fault ∧ fault.notice = notice := by
  cases result with
  | error fault => exact ⟨fault, rfl, Except.error.inj told⟩
  | ok value => cases told

mutual

/-- What an expression yields is what is told of its evaluation. -/
theorem Yields.eval_eq {expr : Expr} {result : Except Undefined.Notice Value}
    (yields : Yields expr result) : expr.eval.mapError Undefined.notice = result := by
  match yields with
  | .number value => rw [eval]; rfl
  | .bareOperator op => rw [eval]; rfl
  | .emptyGroup => rw [eval]; rfl
  | .emptyHead rest => rw [eval]; rfl
  | .groupHead first members rest => rw [eval]; rfl
  | .tooFewOperands few => rw [eval, if_pos few]; rfl
  | .failingOperand enough numbers fails =>
      obtain ⟨fault, evaluates, rfl⟩ := exists_fault_of_told fails.eval_eq
      rw [eval, if_neg (Nat.not_lt.mpr enough), accumulate_of_fault numbers.evalAll_eq]
      · rfl
      · rw [operand, evaluates]
  | @Yields.listOperand op _ _ bad _ items enough numbers isList =>
      have fails : bad.operand op = .error (.listOperand op) := by
        rw [operand, eq_ok_of_told isList.eval_eq]
        rfl
      rw [eval, if_neg (Nat.not_lt.mpr enough), accumulate_of_fault numbers.evalAll_eq fails]
      rfl
  | .application enough numbers folds =>
      rw [eval, if_neg (Nat.not_lt.mpr enough), accumulate_of_numbers numbers.evalAll_eq folds]
      rfl
  | .failingMember split found fails =>
      obtain ⟨fault, evaluates, rfl⟩ := exists_fault_of_told fails.eval_eq
      rw [eval_numberHead, split, evalAll_append found.evalAll_eq, evalAll, evaluates]
      rfl
  | .list found => rw [eval_numberHead, found.evalAll_eq]; rfl

/-- What several expressions yield is what they evaluate to. -/
theorem AllYield.evalAll_eq {exprs : List Expr} {values : List Value}
    (found : AllYield exprs values) : evalAll exprs = .ok values := by
  match found with
  | .nil => rw [evalAll]
  | .cons head tail => rw [evalAll, eq_ok_of_told head.eval_eq, tail.evalAll_eq]; rfl

end

theorem AllYield.length_eq {exprs : List Expr} {values : List Value}
    (found : AllYield exprs values) : exprs.length = values.length := by
  induction exprs generalizing values with
  | nil => cases found; rfl
  | cons first rest ih =>
      cases found with
      | cons head tail => rw [List.length_cons, List.length_cons, ih tail]

/--
Of expressions that yield what is told of their evaluation, all have values of a kind, or there is a
first one that fails or has a value of another kind.
-/
theorem AllYield.or_first_other {exprs : List Expr}
    (each : ∀ expr ∈ exprs, Yields expr (expr.eval.mapError Undefined.notice))
    (kind : Value → Prop) :
    (∃ values, AllYield exprs values ∧ ∀ value ∈ values, kind value) ∨
      ∃ before other after values, exprs = before ++ other :: after ∧ AllYield before values ∧
        (∀ value ∈ values, kind value) ∧ ∀ value, other.eval = .ok value → ¬ kind value := by
  induction exprs with
  | nil => exact .inl ⟨[], .nil, by simp⟩
  | cons first rest ih =>
      by_cases isKind : ∃ value, first.eval = .ok value ∧ kind value
      · obtain ⟨value, evaluates, ofKind⟩ := isKind
        have head := each first List.mem_cons_self
        rw [evaluates] at head
        rcases ih fun expr member => each expr (List.mem_cons_of_mem _ member) with
          ⟨values, found, kinds⟩ | ⟨before, other, after, values, rfl, found, kinds, differs⟩
        · exact .inl ⟨value :: values, .cons head found, by simpa using ⟨ofKind, kinds⟩⟩
        · exact .inr ⟨first :: before, other, after, value :: values, rfl, .cons head found,
            by simpa using ⟨ofKind, kinds⟩, differs⟩
      · rw [not_exists] at isKind
        exact .inr ⟨[], first, rest, [], rfl, .nil, by simp,
          fun value evaluates ofKind => isKind value ⟨evaluates, ofKind⟩⟩

/-- Values that are numbers are the values of a list of numbers. -/
theorem exists_map_number {values : List Value}
    (numbers : ∀ value ∈ values, value ∈ Set.range Value.number) :
    ∃ list : List Binary64, list.map Value.number = values := by
  rwa [← Set.mem_range, Set.range_list_map]

/-- An expression that yields anything yields what is told of its evaluation. -/
theorem Yields.yields_eval {expr : Expr} {result : Except Undefined.Notice Value}
    (yields : Yields expr result) : Yields expr (expr.eval.mapError Undefined.notice) := by
  rw [yields.eval_eq]
  exact yields

/-- An application yields what is told of its evaluation if its operands do. -/
theorem yields_application (op : Operator) {operands : List Expr}
    (each : ∀ operand ∈ operands, Yields operand (operand.eval.mapError Undefined.notice)) :
    Yields (group (operator op :: operands))
      ((group (operator op :: operands)).eval.mapError Undefined.notice) := by
  by_cases few : operands.length < op.arity
  · exact (Yields.tooFewOperands few).yields_eval
  · have enough := Nat.not_lt.mp few
    rcases AllYield.or_first_other each (· ∈ Set.range Value.number) with
      ⟨values, found, areNumbers⟩ | ⟨before, bad, after, values, rfl, found, areNumbers, differs⟩
    · obtain ⟨numbers, rfl⟩ := exists_map_number areNumbers
      have enoughNumbers : op.arity ≤ numbers.length := by
        rwa [found.length_eq, List.length_map] at enough
      obtain ⟨result, folds⟩ := op.exists_fold enoughNumbers
      exact (Yields.application enough found folds).yields_eval
    · obtain ⟨numbers, rfl⟩ := exists_map_number areNumbers
      have yields := each bad (by simp)
      cases outcome : bad.eval with
      | error fault =>
          rw [outcome] at yields
          exact (Yields.failingOperand enough found yields).yields_eval
      | ok value =>
          rw [outcome] at yields
          cases value with
          | number value => exact absurd ⟨value, rfl⟩ (differs _ outcome)
          | list items => exact (Yields.listOperand enough found yields).yields_eval

/-- A list that a number heads yields what is told of its evaluation if its members do. -/
theorem yields_list (head : Binary64) {rest : List Expr}
    (each : ∀ member ∈ number head :: rest,
      Yields member (member.eval.mapError Undefined.notice)) :
    Yields (group (number head :: rest))
      ((group (number head :: rest)).eval.mapError Undefined.notice) := by
  rcases AllYield.or_first_other each (fun _ => True) with
    ⟨values, found, -⟩ | ⟨before, bad, after, values, split, found, -, fails⟩
  · exact (Yields.list found).yields_eval
  · have yields := each bad (by simp [split])
    cases outcome : bad.eval with
    | error fault =>
        rw [outcome] at yields
        exact (Yields.failingMember split found yields).yields_eval
    | ok value => exact absurd trivial (fails value outcome)

mutual

/-- Every expression yields what is told of its evaluation. -/
theorem yields_eval (expr : Expr) : Yields expr (expr.eval.mapError Undefined.notice) := by
  match expr with
  | number value => exact (Yields.number value).yields_eval
  | operator op => exact (Yields.bareOperator op).yields_eval
  | group [] => exact Yields.emptyGroup.yields_eval
  | group (operator op :: operands) => exact yields_application op (yields_evals operands)
  | group (number head :: rest) => exact yields_list head (yields_evals (number head :: rest))
  | group (group [] :: rest) => exact (Yields.emptyHead rest).yields_eval
  | group (group (first :: members) :: rest) =>
      exact (Yields.groupHead first members rest).yields_eval

theorem yields_evals (exprs : List Expr) :
    ∀ expr ∈ exprs, Yields expr (expr.eval.mapError Undefined.notice) := by
  match exprs with
  | [] => exact nofun
  | first :: rest => exact List.forall_mem_cons.mpr ⟨yields_eval first, yields_evals rest⟩

end

/--
An expression evaluates to a value, or to a fault of which something is told, exactly when the rules
say that it yields it: the first fault from left to right, with the number of operands compared before
any of them is looked at, and the fold of the operands only when all of them are numbers.
-/
theorem eval_eq_iff_yields (expr : Expr) (result : Except Undefined.Notice Value) :
    expr.eval.mapError Undefined.notice = result ↔ Yields expr result := by
  constructor
  · rintro rfl
    exact yields_eval expr
  · exact Yields.eval_eq

-- Four faults compete; the arity of the inner application is the first to be compared and missed.
example :
    (group [operator .max, group [operator .subtract, operator .add], operator .min, group []]).eval =
      .error (.tooFewOperands .subtract 1) := rfl

end Expr

end PrefixArith
