import Mathlib.Order.Bounds.Basic
import PrefixArith.Proofs.Binary64.Order
import PrefixArith.Proofs.Expr.Outcome

/-!
# The greatest and the least operand

The number that `max` or `min` holds is replaced unless it compares strictly with the next operand.
So NaN, with which nothing compares, replaces whatever is held and is replaced by whatever comes
next, and of equal numbers the later one is held. What is left in the end is NaN if the last operand
is, and otherwise the last of the extremes behind the last NaN.
-/

namespace PrefixArith

namespace Binary64

/-- A number at the last index of a list at which there is one that reaches all of the list. -/
def IsLastReaching (reaches : Binary64 → Binary64 → Prop) (values : List Binary64)
    (result : Binary64) : Prop :=
  ∃ index : Nat, IsGreatest {index : Nat | ∃ value, values[index]? = some value ∧
    ∀ other ∈ values, reaches value other} index ∧ values[index]? = some result

/-- What is picked from a list by a comparison that admits equality. -/
structure IsPicked (reaches : Binary64 → Binary64 → Prop) (values : List Binary64)
    (result : Binary64) : Prop where
  /-- It is NaN where the list ends in NaN. -/
  nan : values.getLast? = some .nan → result = .nan
  /-- Elsewhere it is the last number to reach all those behind the last NaN. -/
  number : values.getLast? ≠ some .nan → ∃ front behind, values = front ++ behind ∧
    (∀ last ∈ front.getLast?, last = .nan) ∧ .nan ∉ behind ∧ IsLastReaching reaches behind result
  /-- Without any NaN it is one of the list that reaches all of it. -/
  bound : .nan ∉ values → result ∈ values ∧ ∀ value ∈ values, reaches result value

/-- A strict comparison by which a number is held against the next one, and the one it refines. -/
structure Holds (beats : Binary64 → Binary64 → Bool) (reaches : Binary64 → Binary64 → Prop) :
    Prop where
  beats_nan : ∀ value, beats value .nan = false
  nan_beats : ∀ value, beats .nan value = false
  beats_iff : ∀ {left right : Binary64}, left ≠ .nan → right ≠ .nan →
    (beats left right = true ↔ ¬ reaches right left)
  refl : ∀ {value : Binary64}, value ≠ .nan → reaches value value
  trans : ∀ {left middle right : Binary64}, reaches left middle → reaches middle right →
    reaches left right
  reaches_of_beats : ∀ {left right : Binary64}, beats left right = true → reaches left right

theorem holds_greater :
    Holds (fun result value => value.less result) fun value other => other.AtMost value where
  beats_nan _ := nan_less
  nan_beats _ := less_nan
  beats_iff leftNumber rightNumber := less_iff_not_atMost rightNumber leftNumber
  refl := AtMost.refl
  trans first second := second.trans first
  reaches_of_beats := .inl

theorem holds_less : Holds (fun result value => result.less value) AtMost where
  beats_nan _ := less_nan
  nan_beats _ := nan_less
  beats_iff := less_iff_not_atMost
  refl := AtMost.refl
  trans := AtMost.trans
  reaches_of_beats := .inl

/--
The number that is held after some values: NaN where it is the last of them, and otherwise one
behind the last NaN which reaches those before it and beats those after it.
-/
inductive Held (beats : Binary64 → Binary64 → Bool) (reaches : Binary64 → Binary64 → Prop) :
    List Binary64 → Binary64 → Prop where
  | nan (front : List Binary64) : Held beats reaches (front ++ [.nan]) .nan
  | number {front before after : List Binary64} {result : Binary64}
      (cut : ∀ last ∈ front.getLast?, last = .nan)
      (numbers : ∀ value ∈ before ++ result :: after, value ≠ .nan)
      (reached : ∀ value ∈ before, reaches result value)
      (beaten : ∀ value ∈ after, beats result value = true) :
      Held beats reaches (front ++ (before ++ result :: after)) result

section Fold

variable {beats : Binary64 → Binary64 → Bool} {reaches : Binary64 → Binary64 → Prop}
  {values : List Binary64} {result : Binary64}

/-- A number that comes first, or next to a NaN, is held. -/
theorem Held.fresh {front : List Binary64} (cut : ∀ last ∈ front.getLast?, last = .nan)
    (value : Binary64) : Held beats reaches (front ++ [value]) value := by
  by_cases number : value = .nan
  · rw [number]
    exact .nan front
  · exact @Held.number _ _ front [] [] value cut (by simpa using number) (by simp) (by simp)

variable (holds : Holds beats reaches)

include holds

/-- What is held reaches the numbers that it beats. -/
theorem Held.step (held : Held beats reaches values result) (value : Binary64) :
    Held beats reaches (values ++ [value]) (if beats result value then result else value) := by
  cases held with
  | nan front =>
      rw [if_neg (by simp [holds.nan_beats])]
      exact .fresh (by simp) value
  | @number front before after _ cut numbers reached beaten =>
      by_cases isNaN : value = .nan
      · rw [isNaN, if_neg (by simp [holds.beats_nan])]
        exact .nan _
      · have allNumbers : ∀ other ∈ (before ++ result :: after) ++ [value], other ≠ .nan :=
          List.forall_mem_append.mpr ⟨numbers, by simpa using isNaN⟩
        rw [List.append_assoc]
        by_cases wins : beats result value = true
        · rw [if_pos wins, List.append_assoc, List.cons_append]
          refine .number cut ?_ reached ?_
          · simpa using allNumbers
          · exact List.forall_mem_append.mpr ⟨beaten, by simpa using wins⟩
        · have reachesResult : reaches value result := by
            by_contra unreached
            exact wins ((holds.beats_iff (numbers result (by simp)) isNaN).mpr unreached)
          rw [if_neg wins]
          refine .number cut allNumbers ?_ (by simp)
          intro other member
          refine holds.trans reachesResult ?_
          rcases List.mem_append.mp member with inBefore | inAfter
          · exact reached other inBefore
          · rcases List.mem_cons.mp inAfter with rfl | inAfter
            · exact holds.refl (numbers other (by simp))
            · exact holds.reaches_of_beats (beaten other inAfter)

/-- What is held after all values of a list. -/
theorem Held.run (held : Held beats reaches values result) (rest : List Binary64) :
    Held beats reaches (values ++ rest)
      (rest.foldl (fun result value => if beats result value then result else value) result) := by
  induction rest generalizing values result with
  | nil => rwa [List.append_nil]
  | cons value rest ih =>
      rw [List.append_cons]
      exact ih (held.step holds value)

/-- A number that reaches those before it and beats those after it reaches all of them. -/
theorem reaches_all {before after : List Binary64} (number : result ≠ .nan)
    (reached : ∀ value ∈ before, reaches result value)
    (beaten : ∀ value ∈ after, beats result value = true) :
    ∀ value ∈ before ++ result :: after, reaches result value := by
  intro value member
  rcases List.mem_append.mp member with inBefore | inAfter
  · exact reached value inBefore
  · rcases List.mem_cons.mp inAfter with rfl | inAfter
    · exact holds.refl number
    · exact holds.reaches_of_beats (beaten value inAfter)

/-- It is the last to do so, since none of those after it reaches it. -/
theorem isLastReaching {before after : List Binary64}
    (numbers : ∀ value ∈ before ++ result :: after, value ≠ .nan)
    (reached : ∀ value ∈ before, reaches result value)
    (beaten : ∀ value ∈ after, beats result value = true) :
    IsLastReaching reaches (before ++ result :: after) result := by
  have number := numbers result (by simp)
  have here : (before ++ result :: after)[before.length]? = some result := by simp
  have all := reaches_all holds number reached beaten
  refine ⟨before.length, ⟨⟨result, here, all⟩, ?_⟩, here⟩
  rintro index ⟨value, found, reachesAll⟩
  by_contra later
  have inAfter : value ∈ after := by
    obtain ⟨offset, rfl⟩ := Nat.exists_eq_add_of_lt (Nat.lt_of_not_le later)
    rw [Nat.add_assoc, List.getElem?_append_right (Nat.le_add_right _ _), Nat.add_sub_cancel_left,
      List.getElem?_cons_succ] at found
    exact List.mem_of_getElem? found
  have otherNumber := numbers value (by simp [inAfter])
  have beats := beaten value inAfter
  rw [holds.beats_iff number otherNumber] at beats
  exact beats (reachesAll result (by simp))

/-- What is held is what the comparison picks. -/
theorem Held.isPicked (held : Held beats reaches values result) :
    IsPicked reaches values result := by
  cases held with
  | nan front =>
      constructor
      · exact fun _ => rfl
      · exact fun ends => absurd List.getLast?_concat ends
      · exact fun absent => absurd (by simp) absent
  | @number front before after _ cut numbers reached beaten =>
      constructor
      · intro ends
        rw [List.getLast?_append] at ends
        cases last : (before ++ result :: after).getLast? with
        | none => simp at last
        | some value =>
            rw [last, Option.some_or, Option.some_inj] at ends
            exact absurd ends (numbers value (List.mem_of_getLast? last))
      · intro _
        exact ⟨front, _, rfl, cut, fun member => numbers _ member rfl,
          isLastReaching holds numbers reached beaten⟩
      · intro absent
        obtain rfl : front = [] := by
          cases last : front.getLast? with
          | none => exact List.getLast?_eq_none_iff.mp last
          | some value =>
              have member := List.mem_of_getLast? last
              rw [cut value last] at member
              exact absurd (List.mem_append_left _ member) absent
        exact ⟨by simp, reaches_all holds (numbers result (by simp)) reached beaten⟩

/-- The fold that holds a number for as long as it beats the next one picks what it holds last. -/
theorem isPicked_foldl (first : Binary64) (rest : List Binary64) :
    IsPicked reaches (first :: rest)
      (rest.foldl (fun result value => if beats result value then result else value) first) := by
  have start : Held beats reaches ([] ++ [first]) first := .fresh (by simp) first
  exact (start.run holds rest).isPicked holds

end Fold

end Binary64

namespace Expr

open Binary64

/--
An application of `max` or `min` to operands that evaluate to numbers is a number. It is NaN if the
last of them is. Otherwise it is, of the numbers behind the last NaN, the one at the last index
where one is at least, or at most, all of them; so where there is no NaN it is one of the operands
and a bound of them all, and of the equal zeros the later one.
-/
theorem eval_extreme {operands : List Expr} {values : List Binary64}
    (numbers : List.Forall₂ (fun operand value => operand.eval = .ok (.number value))
      operands values)
    (some : operands ≠ []) :
    (∃ greatest, (group (operator .max :: operands)).eval = .ok (.number greatest) ∧
      IsPicked (fun value other => other.AtMost value) values greatest) ∧
    ∃ least, (group (operator .min :: operands)).eval = .ok (.number least) ∧
      IsPicked AtMost values least := by
  have all := numbers
  cases numbers with
  | nil => exact absurd rfl some
  | @cons operand first operands rest head tail =>
      have enough : 1 ≤ (operand :: operands).length := Nat.succ_pos _
      exact ⟨⟨_, eval_application all enough rfl, isPicked_foldl holds_greater first rest⟩,
        ⟨_, eval_application all enough rfl, isPicked_foldl holds_less first rest⟩⟩

theorem eval_extreme_behind_nan :
    let infinite := number (.signed false .infinity)
    let operands := [infinite, group [operator .subtract, infinite, infinite], number .zero,
      number (.signed true .zero)]
    let values := [.signed false .infinity, .nan, .zero, .signed true .zero]
    List.Forall₂ (fun operand value => operand.eval = .ok (.number value)) operands values ∧
      operands ≠ [] ∧
      (∃ greatest, (group (operator .max :: operands)).eval = .ok (.number greatest) ∧
        IsPicked (fun value other => other.AtMost value) values greatest) ∧
      ∃ least, (group (operator .min :: operands)).eval = .ok (.number least) ∧
        IsPicked AtMost values least := by
  intro infinite operands values
  have numbers : List.Forall₂ (fun operand value => operand.eval = .ok (.number value))
      operands values := .cons rfl (.cons rfl (.cons rfl (.cons rfl .nil)))
  have some : operands ≠ [] := List.cons_ne_nil _ _
  exact ⟨numbers, some, eval_extreme numbers some⟩

-- Infinity stands before the NaN and does not count; of the two zeros the later one is taken.
example :
    (group [operator .max, number (.signed false .infinity), number .nan, number .zero,
      number (.signed true .zero)]).eval = .ok (.number (.signed true .zero)) := rfl

end Expr

end PrefixArith
