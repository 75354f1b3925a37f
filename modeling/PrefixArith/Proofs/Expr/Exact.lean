import PrefixArith.Proofs.Decimal.Whole
import PrefixArith.Proofs.Expr.Outcome
import PrefixArith.Proofs.Expr.RoundTrip

/-!
# Exact arithmetic of integers

An application of an operator to integers is read, evaluated and written without loss as long as the
integers and all results on the way are at most `2 ^ 53` in size. The result so far is then the
double of an integer after every operand, and the text of the last one is its plain numeral. The
greatest and the least of the operands are results that need no such bound of their own.
-/

namespace PrefixArith

open Binary64 (IsSmall ofInt)

namespace Operator

/-- The result of an operator on integers after one more operand. -/
def combineInt : Operator → Int → Int → Int
  | add, result, operand => result + operand
  | subtract, result, operand => result - operand
  | max, result, operand => Max.max result operand
  | min, result, operand => Min.min result operand

variable {op : Operator} {result operand : Int}

/-- Operators combine small integers as integers. -/
theorem combine_ofInt (op : Operator) (resultSmall : IsSmall result)
    (operandSmall : IsSmall operand) :
    op.combine (ofInt result) (ofInt operand) = ofInt (op.combineInt result operand) := by
  cases op with
  | add => exact Binary64.add_ofInt resultSmall operandSmall
  | subtract => exact Binary64.sub_ofInt resultSmall operandSmall
  | max =>
      rw [combine, combineInt, Binary64.less_ofInt operandSmall resultSmall]
      rcases Int.lt_or_le operand result with less | atLeast
      · rw [if_pos (decide_eq_true less), Int.max_eq_left less.le]
      · rw [if_neg (by simpa using atLeast), Int.max_eq_right atLeast]
  | min =>
      rw [combine, combineInt, Binary64.less_ofInt resultSmall operandSmall]
      rcases Int.lt_or_le result operand with less | atLeast
      · rw [if_pos (decide_eq_true less), Int.min_eq_left less.le]
      · rw [if_neg (by simpa using atLeast), Int.min_eq_right atLeast]

/-- The first operand is the first result of every operator; a sum adds it to zero. -/
theorem extend_start_ofInt (op : Operator) (small : IsSmall operand) :
    op.extend op.start (ofInt operand) = ofInt operand := by
  cases op with
  | add =>
      have zero : Binary64.zero = ofInt 0 :=
        congrArg (Binary64.signed false) Magnitude.ofNat_zero.symm
      calc
        Binary64.zero.add (ofInt operand) = (ofInt 0).add (ofInt operand) := by rw [zero]
        _ = ofInt (0 + operand) := Binary64.add_ofInt (Nat.zero_le _) small
        _ = ofInt operand := by rw [Int.zero_add]
  | subtract => rfl
  | max => rfl
  | min => rfl

/--
All results on the way from the first operand on are small: the first operand and every result after
more of them.
-/
def StaysSmall (op : Operator) (first : Int) (rest : List Int) : Prop :=
  ∀ count ≤ rest.length, IsSmall ((rest.take count).foldl op.combineInt first)

variable {first : Int} {rest : List Int}

/-- After every operand the result is the double of the integer result. -/
theorem foldl_ofInt (each : ∀ operand ∈ rest, IsSmall operand) (stays : op.StaysSmall first rest) :
    (rest.map ofInt).foldl op.combine (ofInt first) = ofInt (rest.foldl op.combineInt first) := by
  induction rest generalizing first with
  | nil => rfl
  | cons next rest ih =>
      have start : IsSmall first := stays 0 (Nat.zero_le _)
      have later : op.StaysSmall (op.combineInt first next) rest := by
        intro count within
        exact stays (count + 1) (Nat.succ_le_succ within)
      rw [List.map_cons, List.foldl_cons, List.foldl_cons,
        combine_ofInt op start (each next (List.mem_cons_self ..))]
      exact ih (fun operand member => each operand (List.mem_cons_of_mem _ member)) later

theorem fold_ofInt (each : ∀ operand ∈ rest, IsSmall operand) (stays : op.StaysSmall first rest) :
    op.fold ((first :: rest).map ofInt) = some (ofInt (rest.foldl op.combineInt first)) := by
  have start : IsSmall first := stays 0 (Nat.zero_le _)
  rw [fold_eq, List.map_cons, List.foldl_cons, foldl_extend_some, extend_start_ofInt op start,
    foldl_ofInt each stays]

/-! ### Sums, differences and extremes -/

/-- The difference of integers from left to right. -/
def difference : List Int → Int
  | [] => 0
  | first :: rest => rest.foldl (· - ·) first

theorem foldl_add_eq_sum (first : Int) (rest : List Int) :
    rest.foldl add.combineInt first = (first :: rest).sum := by
  rw [List.sum_eq_foldl, List.foldl_cons, Int.zero_add]
  rfl

theorem staysSmall_add (partials : ∀ count ≤ (first :: rest).length,
    IsSmall ((first :: rest).take count).sum) : add.StaysSmall first rest := by
  intro count within
  rw [foldl_add_eq_sum, ← List.take_succ_cons]
  exact partials (count + 1) (Nat.succ_le_succ within)

theorem staysSmall_subtract (partials : ∀ count ≤ (first :: rest).length,
    IsSmall (difference ((first :: rest).take count))) : subtract.StaysSmall first rest := by
  intro count within
  exact partials (count + 1) (Nat.succ_le_succ within)

theorem isGreatest_foldl_max (first : Int) (rest : List Int) :
    IsGreatest {number | number ∈ first :: rest} (rest.foldl max.combineInt first) :=
  List.max?_eq_some_iff.mp List.max?_cons'

theorem isLeast_foldl_min (first : Int) (rest : List Int) :
    IsLeast {number | number ∈ first :: rest} (rest.foldl min.combineInt first) :=
  List.min?_eq_some_iff.mp List.min?_cons'

/-- Results that are among the operands are as small as the operands. -/
theorem staysSmall_of_mem (each : ∀ operand ∈ first :: rest, IsSmall operand)
    (among : ∀ operands, operands.foldl op.combineInt first ∈ first :: operands) :
    op.StaysSmall first rest := by
  intro count _
  apply each
  rcases List.mem_cons.mp (among (rest.take count)) with is | later
  · exact List.mem_cons.mpr (.inl is)
  · exact List.mem_cons_of_mem _ (List.mem_of_mem_take later)

end Operator

namespace Expr

/-! ## Applications to integers -/

/-- The application of an operator to integers, as a tree. -/
def integerApplication (op : Operator) (numbers : List Int) : Expr :=
  group (operator op :: (numbers.map ofInt).map number)

/-- The text of an application to integers: plain decimal numerals, one space apart. -/
def integerText (op : Operator) (numbers : List Int) : String :=
  "(" ++ " ".intercalate (op.symbol :: numbers.map toString) ++ ")"

theorem texts_eq_map (members : List Expr) : texts members = members.map text := by
  induction members with
  | nil => rfl
  | cons first rest ih => rw [texts, ih, List.map_cons]

theorem areFinite_iff {members : List Expr} :
    areFinite members = true ↔ ∀ member ∈ members, member.isFinite = true := by
  induction members with
  | nil => exact ⟨nofun, fun _ => rfl⟩
  | cons first rest ih => rw [areFinite, Bool.and_eq_true, ih, List.forall_mem_cons]

theorem greatestDepth_numbers (values : List Binary64) :
    greatestDepth (values.map number) = 0 := by
  induction values with
  | nil => rfl
  | cons first rest ih => rw [List.map_cons, greatestDepth, ih, depth, Nat.max_self]

variable {op : Operator} {numbers : List Int}

theorem toList_integerText (each : ∀ number ∈ numbers, IsSmall number) :
    (integerText op numbers).toList = (integerApplication op numbers).text := by
  have numerals : (numbers.map toString).map String.toList =
      ((numbers.map ofInt).map number).map text := by
    rw [List.map_map, List.map_map, List.map_map]
    apply List.map_congr_left
    intro value member
    rw [Function.comp_apply, Function.comp_apply, Function.comp_apply, text,
      Numeral.plain_text_ofInt (each value member)]
  have opening : "(".toList = ['('] := rfl
  have space : " ".toList = [' '] := rfl
  have closing : ")".toList = [')'] := rfl
  rw [integerText, integerApplication, text, texts, texts_eq_map, ← numerals, text,
    String.toList_append, String.toList_append, String.toList_intercalate, List.map_cons, opening,
    space, closing, List.singleton_append]

theorem isFinite_integerApplication (op : Operator) (each : ∀ number ∈ numbers, IsSmall number) :
    (integerApplication op numbers).isFinite = true := by
  rw [integerApplication, isFinite, areFinite, isFinite, Bool.true_and, areFinite_iff]
  intro member inNumbers
  rw [List.map_map] at inNumbers
  obtain ⟨number, is, rfl⟩ := List.mem_map.mp inNumbers
  exact Binary64.isFinite_ofInt (each number is)

theorem depth_integerApplication (op : Operator) (numbers : List Int) :
    (integerApplication op numbers).depth = 1 := by
  rw [integerApplication, depth, greatestDepth, greatestDepth_numbers]
  rfl

/-- An application to integers has the double of the integer result for its value. -/
theorem eval_integerApplication {first : Int} {rest : List Int}
    (enough : op.arity ≤ (first :: rest).length) (each : ∀ operand ∈ rest, IsSmall operand)
    (stays : op.StaysSmall first rest) :
    (integerApplication op (first :: rest)).eval =
      .ok (.number (ofInt (rest.foldl op.combineInt first))) := by
  have numbers : List.Forall₂ (fun operand value => eval operand = .ok (.number value))
      (((first :: rest).map ofInt).map number) ((first :: rest).map ofInt) := by
    rw [List.forall₂_map_left_iff, List.forall₂_same]
    intro value _
    rw [eval]
  apply eval_application numbers
  · rwa [List.length_map, List.length_map]
  · exact Operator.fold_ofInt each stays

end Expr

namespace Calculator

open Operator (StaysSmall)
open PrefixArith.Expr (integerText integerApplication)

/--
A text evaluates to a number that is exactly an integer, and the number is written as the plain
decimal numeral of the integer.
-/
def ComputesInteger (calculator : Calculator) (text : String) (number : Int) : Prop :=
  ∃ result, calculator.evaluate text = .ok (.number result) ∧
    result.rational? = some (number : ℚ) ∧
    String.ofList (Value.number result).text = toString number

variable {calculator : Calculator} {op : Operator} {first : Int} {rest : List Int}

theorem computesInteger_of_evaluate {text : String} {number : Int} (small : IsSmall number)
    (evaluates : calculator.evaluate text = .ok (.number (ofInt number))) :
    calculator.ComputesInteger text number := by
  refine ⟨ofInt number, evaluates, Binary64.rational?_ofInt small, ?_⟩
  rw [Value.text, Value.layoutText, Numeral.plain_text_ofInt small, String.ofList_toList]

/-- An application to integers is exact where all results on the way are small. -/
theorem computesInteger_integerText (deep : 0 < calculator.settings.maxDepth)
    (enough : op.arity ≤ (first :: rest).length) (each : ∀ operand ∈ rest, IsSmall operand)
    (stays : op.StaysSmall first rest) :
    calculator.ComputesInteger (integerText op (first :: rest))
      (rest.foldl op.combineInt first) := by
  have all : ∀ operand ∈ first :: rest, IsSmall operand :=
    List.forall_mem_cons.mpr ⟨stays 0 (Nat.zero_le _), each⟩
  have last : IsSmall (rest.foldl op.combineInt first) := by
    have whole := stays rest.length (Nat.le_refl _)
    rwa [List.take_length] at whole
  obtain ⟨lexemes, division, spelling⟩ :=
    Expr.exists_division_spelling (Expr.isFinite_integerApplication op all) 0
  rw [← Expr.toList_integerText all] at division
  have read : calculator.read (integerText op (first :: rest)) =
      .ok (integerApplication op (first :: rest)) :=
    Expr.Spelling.read_eq division spelling (by rwa [Expr.depth_integerApplication])
  apply computesInteger_of_evaluate last
  rw [evaluate, read]
  dsimp only
  rw [Expr.eval_integerApplication enough each stays]
  rfl

/--
Integer arithmetic is exact up to `2 ^ 53`. A sum or difference of small integers is computed
exactly where no partial one leaves the range, and the greatest and the least of them always are.
-/
theorem evaluate_integers (calculator : Calculator) (deep : 0 < calculator.settings.maxDepth)
    (numbers : List Int) (nonempty : numbers ≠ []) (each : ∀ number ∈ numbers, IsSmall number) :
    ((∀ count ≤ numbers.length, IsSmall (numbers.take count).sum) →
      calculator.ComputesInteger (integerText .add numbers) numbers.sum) ∧
    (2 ≤ numbers.length →
      (∀ count ≤ numbers.length, IsSmall (Operator.difference (numbers.take count))) →
      calculator.ComputesInteger (integerText .subtract numbers) (Operator.difference numbers)) ∧
    (∃ greatest, IsGreatest {number | number ∈ numbers} greatest ∧
      calculator.ComputesInteger (integerText .max numbers) greatest) ∧
    ∃ least, IsLeast {number | number ∈ numbers} least ∧
      calculator.ComputesInteger (integerText .min numbers) least := by
  obtain ⟨first, rest, rfl⟩ := List.exists_cons_of_ne_nil nonempty
  have later : ∀ operand ∈ rest, IsSmall operand := (List.forall_mem_cons.mp each).2
  have one : 1 ≤ (first :: rest).length := Nat.succ_le_succ (Nat.zero_le _)
  refine ⟨?sum, ?difference, ?greatest, ?least⟩
  case sum =>
      intro partials
      rw [← Operator.foldl_add_eq_sum]
      exact computesInteger_integerText deep one later (Operator.staysSmall_add partials)
  case difference =>
      intro two partials
      exact computesInteger_integerText deep two later (Operator.staysSmall_subtract partials)
  case greatest =>
      have stays := Operator.staysSmall_of_mem each fun operands =>
        (Operator.isGreatest_foldl_max first operands).1
      exact ⟨_, Operator.isGreatest_foldl_max first rest,
        computesInteger_integerText deep one later stays⟩
  case least =>
      have stays := Operator.staysSmall_of_mem each fun operands =>
        (Operator.isLeast_foldl_min first operands).1
      exact ⟨_, Operator.isLeast_foldl_min first rest,
        computesInteger_integerText deep one later stays⟩

/-- At the edge of the range. -/
theorem evaluate_integers_at_edge :
    standard.ComputesInteger "(+ 9007199254740991 1 -1)" 9007199254740991 ∧
      standard.ComputesInteger "(- 9007199254740991 1 -1)" 9007199254740991 := by
  obtain ⟨sum, difference, -, -⟩ := evaluate_integers standard (by decide)
    [9007199254740991, 1, -1] (by decide) (by decide)
  exact ⟨sum (by decide), difference (by decide) (by decide)⟩

end Calculator

end PrefixArith
