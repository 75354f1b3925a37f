import PrefixArith.Proofs.Json.Grammar

/-!
# Passing over values

A value is passed over exactly up to its end, whatever brackets, commas, quotes and keys it holds
and however deep it nests. What the readers leave is compared as texts, without the bounds on their
length.
-/

namespace PrefixArith

namespace Json

open Number (EndsNumber)

/-- What a reader leaves, as a plain text. -/
def left {text : List Char} (result : Except Fault (Remainder text)) : Except Fault (List Char) :=
  result.map Subtype.val

variable {text gap : List Char} {first : Char} {rest : Remainder text}

/-! ## One step of each reader -/

theorem next?_append (isGap : IsGap gap) (first : Char) (visible : isBlank first = false)
    (rest : List Char) :
    ∃ shorter, next? (gap ++ first :: rest) = some (first, ⟨rest, shorter⟩) := by
  induction gap with
  | nil => exact ⟨Nat.lt_succ_self _, next?_cons visible rest⟩
  | cons blank gap ih =>
      obtain ⟨shorter, found⟩ := ih fun character member => isGap character (.tail _ member)
      refine ⟨Nat.lt_succ_of_lt shorter, ?_⟩
      simp only [List.cons_append, next?, if_pos (isGap blank (.head _)), found, Option.map_some]

theorem left_ok (rest : Remainder text) : left (.ok rest) = .ok rest.val :=
  rfl

/-- It makes no difference of which text something is left. -/
theorem left_map {part : List Char} (place : Remainder part → Remainder text)
    (same : ∀ rest, (place rest).val = rest.val) (result : Except Fault (Remainder part)) :
    left (result.map place) = left result := by
  cases result with
  | error fault => rfl
  | ok rest => exact congrArg Except.ok (same rest)

theorem left_map_of {part : Remainder text} (result : Except Fault (Remainder part.val)) :
    left (result.map part.of) = left result :=
  left_map part.of (fun _ => rfl) result

theorem left_constant (letters : List Char) (rest : Remainder text) :
    left (constant letters rest) = word letters rest.val := by
  unfold constant
  split
  · next failed => exact failed.symm
  · next taken => exact taken.symm

theorem left_skipQuoted (rest : Remainder text) :
    left (skipQuoted rest) = Quoted.skip rest.val := by
  unfold skipQuoted
  split
  · next failed => exact failed.symm
  · next passed => exact passed.symm

theorem left_skipNumeral (first : Char) (rest : Remainder text) :
    left (skipNumeral first rest) = Number.skip (first :: rest.val) := by
  unfold skipNumeral
  split
  · next failed => exact failed.symm
  · next passed => exact passed.symm

/-- The first visible character decides how a value is passed over. -/
theorem left_skip (found : next? text = some (first, rest)) :
    left (skip text) =
      if first = 'n' then word ['u', 'l', 'l'] rest.val
      else if first = 't' then word ['r', 'u', 'e'] rest.val
      else if first = 'f' then word ['a', 'l', 's', 'e'] rest.val
      else if first = '"' then Quoted.skip rest.val
      else if startsNumber first then Number.skip (first :: rest.val)
      else if first = '[' then left (skipItems true rest.val)
      else if first = '\x7b' then left (skipMembers true rest.val)
      else .error .noValue := by
  rw [skip, found]
  simp only [apply_ite left, left_constant, left_skipQuoted, left_skipNumeral, left_map_of]
  rfl

/-- Passes over an item and the items behind it. -/
def passItems (text : List Char) : Except Fault (List Char) :=
  (left (skip text)).bind fun after => left (skipItems false after)

theorem left_skipItems (isFirst : Bool) (found : next? text = some (first, rest)) :
    left (skipItems isFirst text) =
      if first = ']' then .ok rest.val
      else if isFirst then passItems text
      else if first = ',' then passItems rest.val
      else .error .noListComma := by
  rw [skipItems, found, passItems, passItems]
  simp only [apply_ite left]
  congr 3
  · cases skip text with
    | error fault => rfl
    | ok after => exact left_map_of _
  · cases skip rest.val with
    | error fault => rfl
    | ok after => exact left_map (fun found => rest.of (after.of found)) (fun _ => rfl) _

theorem left_colon (found : next? text = some (first, rest)) :
    left (colon text) = if first = ':' then .ok rest.val else .error .noColon := by
  rw [colon, found]
  exact apply_ite left _ _ _

theorem left_skipKey (found : next? text = some (first, rest)) :
    left (skipKey text) =
      if first = '"' then (Quoted.skip rest.val).bind fun after => left (colon after)
      else .error .keyNotString := by
  rw [skipKey, found]
  simp only [apply_ite left]
  congr 1
  rw [← left_skipQuoted]
  cases skipQuoted rest with
  | error fault => rfl
  | ok after => exact left_map_of _

/-- Passes over a member and the members behind it. -/
def passMembers (text : List Char) : Except Fault (List Char) :=
  (left (skipKey text)).bind fun afterKey =>
    (left (skip afterKey)).bind fun after => left (skipMembers false after)

theorem left_skipMembers (isFirst : Bool) (found : next? text = some (first, rest)) :
    left (skipMembers isFirst text) =
      if first = '\x7d' then .ok rest.val
      else if isFirst then passMembers text
      else if first = ',' then passMembers rest.val
      else .error .noObjectComma := by
  rw [skipMembers, found, passMembers, passMembers]
  simp only [apply_ite left]
  congr 3
  · cases skipKey text with
    | error fault => rfl
    | ok afterKey =>
        dsimp only [left_ok, Except.bind]
        cases skip afterKey.val with
        | error fault => rfl
        | ok after => exact left_map (fun found => afterKey.of (after.of found)) (fun _ => rfl) _
  · cases skipKey rest.val with
    | error fault => rfl
    | ok afterKey =>
        dsimp only [left_ok, Except.bind]
        cases skip afterKey.val with
        | error fault => rfl
        | ok after =>
            exact left_map (fun found => rest.of (afterKey.of (after.of found))) (fun _ => rfl) _

/-! ## Values -/

theorem Number.IsWritten.exists_cons {written : List Char} (isWritten : Number.IsWritten written) :
    ∃ first others, written = first :: others ∧ startsNumber first = true := by
  cases isWritten with
  | @of whole tail fraction exponent negative isWord nonempty leading isFraction exponentText =>
      cases negative with
      | true => exact ⟨'-', _, rfl, rfl⟩
      | false =>
          obtain ⟨digit, others, rfl⟩ := List.exists_cons_of_ne_nil nonempty
          have starts : startsNumber digit = true := by
            rw [startsNumber, isWord digit (.head _), Bool.or_true]
          exact ⟨digit, _, rfl, starts⟩

/-- A value starts with a visible character, which does not close a list. -/
theorem IsValue.exists_cons {written : List Char} (isValue : IsValue written) :
    ∃ first others, written = first :: others ∧ isBlank first = false ∧ first ≠ ']' := by
  cases isValue with
  | number isWritten =>
      obtain ⟨first, others, rfl, starts⟩ := isWritten.exists_cons
      obtain ⟨visible, open', -⟩ := startsNumber_ne starts
      exact ⟨first, others, rfl, visible, open'⟩
  | _ => exact ⟨_, _, rfl, by decide, by decide⟩

theorem endsNumber_append {rest : List Char} (isGap : IsGap gap) (ends : EndsNumber rest) :
    EndsNumber (gap ++ rest) := by
  cases gap with
  | nil => exact ends
  | cons blank gap =>
      have foreign := isGap blank (.head _)
      refine Number.endsNumber_cons ?_ _
      simp only [isBlank, Bool.or_eq_true, beq_iff_eq] at foreign
      rcases foreign with ((rfl | rfl) | rfl) | rfl <;> decide

theorem left_skip_list (isGap : IsGap gap) (rest : List Char) :
    left (skip (gap ++ '[' :: rest)) = left (skipItems true rest) := by
  obtain ⟨_, found⟩ := next?_append isGap '[' rfl rest
  exact left_skip found

theorem left_skip_object (isGap : IsGap gap) (rest : List Char) :
    left (skip (gap ++ '\x7b' :: rest)) = left (skipMembers true rest) := by
  obtain ⟨_, found⟩ := next?_append isGap '\x7b' rfl rest
  exact left_skip found

theorem left_skipItems_close (isFirst : Bool) (isGap : IsGap gap) (rest : List Char) :
    left (skipItems isFirst (gap ++ ']' :: rest)) = .ok rest := by
  obtain ⟨_, found⟩ := next?_append isGap ']' rfl rest
  rw [left_skipItems isFirst found, if_pos rfl]

theorem left_skipMembers_close (isFirst : Bool) (isGap : IsGap gap) (rest : List Char) :
    left (skipMembers isFirst (gap ++ '\x7d' :: rest)) = .ok rest := by
  obtain ⟨_, found⟩ := next?_append isGap '\x7d' rfl rest
  rw [left_skipMembers isFirst found, if_pos rfl]

theorem left_skipItems_comma (isGap : IsGap gap) (rest : List Char) :
    left (skipItems false (gap ++ ',' :: rest)) = passItems rest := by
  obtain ⟨_, found⟩ := next?_append isGap ',' rfl rest
  rw [left_skipItems false found]
  rfl

theorem left_skipMembers_comma (isGap : IsGap gap) (rest : List Char) :
    left (skipMembers false (gap ++ ',' :: rest)) = passMembers rest := by
  obtain ⟨_, found⟩ := next?_append isGap ',' rfl rest
  rw [left_skipMembers false found]
  rfl

/-- A key and the colon behind it are passed over. -/
theorem left_skipKey_append {before key after : List Char} (isBefore : IsGap before)
    (written : Quoted.IsWritten key) (isAfter : IsGap after) (rest : List Char) :
    left (skipKey (before ++ '"' :: (key ++ '"' :: (after ++ ':' :: rest)))) = .ok rest := by
  obtain ⟨_, found⟩ := next?_append isBefore '"' rfl (key ++ '"' :: (after ++ ':' :: rest))
  obtain ⟨_, point⟩ := next?_append isAfter ':' rfl rest
  rw [left_skipKey found, if_pos rfl, written.skip_append, Except.bind, left_colon point,
    if_pos rfl]

/-- The first item is read where the list starts. -/
theorem AreItems.left_skipItems {written : List Char} (areItems : AreItems written)
    (rest : List Char) :
    left (skipItems true (written ++ rest)) = passItems (written ++ rest) := by
  have first {before text after : List Char} (isBefore : IsGap before) (isValue : IsValue text) :
      left (skipItems true (before ++ (text ++ after))) =
        passItems (before ++ (text ++ after)) := by
    obtain ⟨first, others, rfl, visible, opens⟩ := isValue.exists_cons
    obtain ⟨_, found⟩ := next?_append isBefore first visible (others ++ after)
    exact (Json.left_skipItems true found).trans (if_neg opens)
  cases areItems with
  | one item =>
      obtain ⟨isBefore, isValue, -⟩ := item
      rw [List.append_assoc, List.append_assoc]
      exact first isBefore isValue
  | cons item items =>
      obtain ⟨isBefore, isValue, -⟩ := item
      rw [List.append_assoc, List.append_assoc, List.append_assoc]
      exact first isBefore isValue

/-- The first member is read where the object starts. -/
theorem AreMembers.left_skipMembers {written : List Char} (areMembers : AreMembers written)
    (rest : List Char) :
    left (skipMembers true (written ++ rest)) = passMembers (written ++ rest) := by
  have first {before after : List Char} (isBefore : IsGap before) :
      left (skipMembers true (before ++ '"' :: after)) = passMembers (before ++ '"' :: after) := by
    obtain ⟨_, found⟩ := next?_append isBefore '"' rfl after
    exact Json.left_skipMembers true found
  cases areMembers with
  | one member =>
      obtain ⟨isBefore, -, -, -⟩ := member
      rw [List.append_assoc]
      exact first isBefore
  | cons member members =>
      obtain ⟨isBefore, -, -, -⟩ := member
      rw [List.append_assoc, List.append_assoc]
      exact first isBefore

mutual

/-- A value is passed over up to its end, and with it the blanks in front. -/
theorem IsValue.left_skip {written gap rest : List Char} (isValue : IsValue written)
    (isGap : IsGap gap) (ends : EndsNumber rest) :
    left (skip (gap ++ (written ++ rest))) = .ok rest := by
  match isValue with
  | .nullWord =>
      obtain ⟨_, found⟩ := next?_append isGap 'n' rfl ('u' :: 'l' :: 'l' :: rest)
      exact (Json.left_skip found).trans rfl
  | .trueWord =>
      obtain ⟨_, found⟩ := next?_append isGap 't' rfl ('r' :: 'u' :: 'e' :: rest)
      exact (Json.left_skip found).trans rfl
  | .falseWord =>
      obtain ⟨_, found⟩ := next?_append isGap 'f' rfl ('a' :: 'l' :: 's' :: 'e' :: rest)
      exact (Json.left_skip found).trans rfl
  | @IsValue.string text isWritten =>
      obtain ⟨_, found⟩ := next?_append isGap '"' rfl (text ++ '"' :: rest)
      rw [List.cons_append, List.append_assoc]
      exact (Json.left_skip found).trans (isWritten.skip_append rest)
  | .number isWritten =>
      -- Only a number does not show its own end.
      obtain ⟨parts, taken⟩ := isWritten.exists_takeParts
      have passed : Number.skip (written ++ rest) = .ok rest := by
        rw [Number.skip, taken _ ends]
        rfl
      obtain ⟨first, others, rfl, starts⟩ := isWritten.exists_cons
      obtain ⟨visible, -, notNull, notTrue, notFalse, notString⟩ := startsNumber_ne starts
      obtain ⟨_, found⟩ := next?_append isGap first visible (others ++ rest)
      refine (Json.left_skip found).trans ?_
      rw [if_neg notNull, if_neg notTrue, if_neg notFalse, if_neg notString, if_pos starts]
      exact passed
  | .emptyList isInner =>
      rw [List.cons_append, List.append_assoc]
      exact (left_skip_list isGap _).trans (left_skipItems_close _ isInner rest)
  | .list items =>
      rw [List.cons_append, List.append_assoc]
      refine (left_skip_list isGap _).trans ?_
      exact (items.left_skipItems (']' :: rest)).trans (items.passItems rest)
  | .emptyObject isInner =>
      rw [List.cons_append, List.append_assoc]
      exact (left_skip_object isGap _).trans (left_skipMembers_close _ isInner rest)
  | .object members =>
      rw [List.cons_append, List.append_assoc]
      refine (left_skip_object isGap _).trans ?_
      exact (members.left_skipMembers ('\x7d' :: rest)).trans (members.passMembers rest)

/-- An item is passed over up to the blanks behind it. -/
theorem IsItem.left_skip {written rest : List Char} (isItem : IsItem written)
    (ends : EndsNumber rest) :
    ∃ gap, IsGap gap ∧ left (skip (written ++ rest)) = .ok (gap ++ rest) := by
  match isItem with
  | @IsItem.of before text after isBefore isValue isAfter =>
      refine ⟨after, isAfter, ?_⟩
      rw [List.append_assoc, List.append_assoc]
      exact isValue.left_skip isBefore (endsNumber_append isAfter ends)

/-- Items are passed over up to the bracket that closes their list. -/
theorem AreItems.passItems {written : List Char} (areItems : AreItems written) (rest : List Char) :
    passItems (written ++ ']' :: rest) = .ok rest := by
  match areItems with
  | .one item =>
      have ends : EndsNumber (']' :: rest) := Number.endsNumber_cons (by decide) rest
      obtain ⟨gap, isGap, passed⟩ := item.left_skip ends
      rw [Json.passItems, passed]
      exact left_skipItems_close false isGap rest
  | @AreItems.cons text others item items =>
      have ends : EndsNumber (',' :: (others ++ ']' :: rest)) :=
        Number.endsNumber_cons (by decide) _
      obtain ⟨gap, isGap, passed⟩ := item.left_skip ends
      rw [List.append_assoc, List.cons_append, Json.passItems, passed]
      exact (left_skipItems_comma isGap _).trans (items.passItems rest)

/-- A member is passed over up to the blanks behind it. -/
theorem IsMember.pass {written rest : List Char} (isMember : IsMember written)
    (ends : EndsNumber rest) :
    ∃ gap, IsGap gap ∧ Json.passMembers (written ++ rest) =
      left (skipMembers false (gap ++ rest)) := by
  match isMember with
  | @IsMember.of before key after text isBefore isWritten isAfter item =>
      obtain ⟨gap, isGap, passed⟩ := item.left_skip ends
      refine ⟨gap, isGap, ?_⟩
      have split : before ++ '"' :: (key ++ '"' :: (after ++ ':' :: text)) ++ rest =
          before ++ '"' :: (key ++ '"' :: (after ++ ':' :: (text ++ rest))) := by
        simp
      rw [split, Json.passMembers, left_skipKey_append isBefore isWritten isAfter, Except.bind,
        passed, Except.bind]

/-- Members are passed over up to the brace that closes their object. -/
theorem AreMembers.passMembers {written : List Char} (areMembers : AreMembers written)
    (rest : List Char) : passMembers (written ++ '\x7d' :: rest) = .ok rest := by
  match areMembers with
  | .one member =>
      have ends : EndsNumber ('\x7d' :: rest) := Number.endsNumber_cons (by decide) rest
      obtain ⟨gap, isGap, passed⟩ := member.pass ends
      exact passed.trans (left_skipMembers_close false isGap rest)
  | @AreMembers.cons text others member members =>
      have ends : EndsNumber (',' :: (others ++ '\x7d' :: rest)) :=
        Number.endsNumber_cons (by decide) _
      obtain ⟨gap, isGap, passed⟩ := member.pass ends
      rw [List.append_assoc, List.cons_append, passed]
      exact (left_skipMembers_comma isGap _).trans (members.passMembers rest)

end

end Json

end PrefixArith
