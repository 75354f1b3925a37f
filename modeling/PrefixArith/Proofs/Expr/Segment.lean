import PrefixArith.Proofs.Expr.Culprit
import PrefixArith.Proofs.Expr.Threshold

/-!
# The segment of an element

Reading an element takes lexemes one after the other, each of them once: an atom, or all from a
parenthesis to the one that matches it. A fault is found at the last lexeme that is taken, unless the
lexemes end inside a group. What is found depends on no lexeme but those.
-/

namespace PrefixArith

namespace Lexeme

/-- Lexemes that open and close as many parentheses, and nowhere have closed more than opened. -/
structure IsBalanced (lexemes : List Lexeme) : Prop where
  level_nonneg : ∀ front, front <+: lexemes → 0 ≤ level front
  level_eq : level lexemes = 0

/-- One atom, or an opening parenthesis and what stands between it and the one that matches it. -/
inductive IsSegment : List Lexeme → Prop where
  | atom {lexeme : Lexeme} {text : String} (atom : lexeme.token = .atom text) : IsSegment [lexeme]
  | group {opening closing : Lexeme} {inner : List Lexeme} (opens : opening.token = .opening)
      (balanced : IsBalanced inner) (closes : closing.token = .closing) :
      IsSegment (opening :: (inner ++ [closing]))

theorem IsBalanced.nil : IsBalanced [] where
  level_nonneg front isFront := by
    rw [List.prefix_nil.mp isFront]
    exact Int.le_refl 0
  level_eq := rfl

theorem IsBalanced.append {left right : List Lexeme} (isLeft : IsBalanced left)
    (isRight : IsBalanced right) : IsBalanced (left ++ right) where
  level_nonneg front isFront := by
    rcases List.prefix_or_prefix_of_prefix isFront (List.prefix_append left right) with
      inside | ⟨inner, rfl⟩
    · exact isLeft.level_nonneg front inside
    · have isInner := (List.prefix_append_right_inj left).mp isFront
      rw [level_append, isLeft.level_eq, Int.zero_add]
      exact isRight.level_nonneg inner isInner
  level_eq := by
    rw [level_append, isLeft.level_eq, isRight.level_eq]
    rfl

theorem IsSegment.isBalanced {lexemes : List Lexeme} (segment : IsSegment lexemes) :
    IsBalanced lexemes := by
  cases segment with
  | @atom lexeme text atom =>
      have flat : level [lexeme] = 0 := by simp [atom, Token.rise]
      refine ⟨fun front isFront => ?_, flat⟩
      rcases List.prefix_cons_iff.mp isFront with rfl | ⟨inner, rfl, isInner⟩
      · exact Int.le_refl 0
      · rw [List.prefix_nil.mp isInner, flat]
  | @group opening closing inner opens balanced closes =>
      have rises : level [opening] = 1 := by simp [opens, Token.rise]
      have falls : level [closing] = -1 := by simp [closes, Token.rise]
      have whole : level (opening :: (inner ++ [closing])) = 0 := by
        simp [opens, closes, Token.rise, balanced.level_eq]
      refine ⟨fun front isFront => ?_, whole⟩
      rcases List.prefix_cons_iff.mp isFront with rfl | ⟨middle, rfl, isMiddle⟩
      · exact Int.le_refl 0
      · rcases List.prefix_concat_iff.mp isMiddle with rfl | isMiddle
        · exact whole.ge
        · have nonneg := balanced.level_nonneg middle isMiddle
          rw [← List.singleton_append, level_append, rises]
          omega

end Lexeme

namespace Expr

mutual

/-- Lexemes that spell an expression are an atom or a group up to its end. -/
theorem Spelling.isSegment {expr : Expr} {tokens : List Token} (spelling : Spelling expr tokens)
    {lexemes : List Lexeme} (spelled : lexemes.map Lexeme.token = tokens) :
    Lexeme.IsSegment lexemes := by
  match spelling with
  | .leaf stands =>
      obtain ⟨lexeme, rfl, atom⟩ := List.map_eq_singleton_iff.mp spelled
      exact .atom atom
  | .group inner =>
      obtain ⟨opening, others, rfl, opens, remaining⟩ := List.map_eq_cons_iff.mp spelled
      obtain ⟨middle, last, rfl, spelledInside, spelledLast⟩ := List.map_eq_append_iff.mp remaining
      obtain ⟨closing, rfl, closes⟩ := List.map_eq_singleton_iff.mp spelledLast
      exact .group opens (inner.isBalanced spelledInside) closes

/-- Lexemes that spell several expressions are balanced. -/
theorem Spellings.isBalanced {exprs : List Expr} {tokens : List Token}
    (spellings : Spellings exprs tokens) {lexemes : List Lexeme}
    (spelled : lexemes.map Lexeme.token = tokens) : Lexeme.IsBalanced lexemes := by
  match spellings with
  | .nil =>
      rw [List.map_eq_nil_iff.mp spelled]
      exact .nil
  | .cons head tail =>
      obtain ⟨front, back, rfl, spelledFront, spelledBack⟩ := List.map_eq_append_iff.mp spelled
      exact (head.isSegment spelledFront).isBalanced.append (tail.isBalanced spelledBack)

end

/-! ## The lexemes that are taken -/

mutual

/-- The indices of the lexemes that reading an element takes; the first lexeme has an index. -/
def visits (limit level index : Nat) (first : Lexeme) (rest : List Lexeme) : List Nat :=
  index ::
    if first.token = .opening ∧ level < limit then
      memberVisits limit (level + 1) (index + 1) rest
    else []
  termination_by (rest.length + 1, 0)
  decreasing_by exact Prod.Lex.left _ _ (Nat.lt_succ_self _)

/-- The indices of the lexemes that reading the members of a group takes. -/
def memberVisits (limit level index : Nat) (lexemes : List Lexeme) : List Nat :=
  match lexemes with
  | [] => []
  | first :: rest =>
      if first.token = .closing then [index]
      else
        visits limit level index first rest ++
          match element limit level first rest with
          | .error _ => []
          | .ok (_, ⟨middle, _shorter⟩) =>
              memberVisits limit level (index + ((first :: rest).length - middle.length)) middle
  termination_by (lexemes.length, 1)
  decreasing_by
    · exact Prod.Lex.right _ Nat.zero_lt_one
    · exact Prod.Lex.left _ _ _shorter

end

mutual

/-- An element that is read takes the lexemes up to the rest, each once. -/
theorem visits_of_element {limit level : Nat} {first : Lexeme} {rest : List Lexeme} {expr : Expr}
    {after : Remainder (first :: rest)}
    (found : element limit level first rest = .ok (expr, after)) (index : Nat) :
    visits limit level index first rest =
      List.range' index ((first :: rest).length - after.val.length) := by
  rw [element] at found
  rw [visits]
  split at found
  · next opening =>
      split at found
      · cases found
      · next room =>
          split at found
          · cases found
          · next children after shorter inner =>
              cases found
              rw [if_pos ⟨opening, Nat.not_le.mp room⟩, visits_of_members inner (index + 1),
                ← List.range'_succ]
              congr 1
              simp only [List.length_cons]
              omega
  · cases found
  · next text atom =>
      split at found
      · cases found
      · cases found
        have one : (first :: rest).length - rest.length = 1 := by simp
        rw [if_neg (by simp [atom]), one]
        rfl
  termination_by (rest.length + 1, 0)

/-- Members that are read take the lexemes up to the rest, each once. -/
theorem visits_of_members {limit level opened : Nat} {lexemes : List Lexeme} {exprs : List Expr}
    {after : Remainder lexemes}
    (found : members limit level opened lexemes = .ok (exprs, after)) (index : Nat) :
    memberVisits limit level index lexemes =
      List.range' index (lexemes.length - after.val.length) := by
  match lexemes with
  | [] =>
      rw [members] at found
      cases found
  | first :: rest =>
      rw [members] at found
      split at found
      · next closing =>
          cases found
          have one : (first :: rest).length - rest.length = 1 := by simp
          rw [memberVisits, if_pos closing, one]
          rfl
      · next other =>
          split at found
          · cases found
          · next child middle shorter head =>
              split at found
              · cases found
              · next children after shorterStill tail =>
                  cases found
                  rw [memberVisits, if_neg other, visits_of_element head index, head]
                  dsimp only
                  rw [visits_of_members tail, List.range'_append_1]
                  congr 1
                  simp only at shorter shorterStill ⊢
                  omega
  termination_by (lexemes.length, 1)

end

/-! ## The lexeme at fault -/

mutual

/--
Tokens at the front of an element, and behind them a lexeme at which the element cannot be read on,
under a limit on a level.
-/
inductive Fails (limit : Nat) : Nat → List Token → Lexeme → Malformed → Prop where
  | tooDeep {level : Nat} {lexeme : Lexeme} (opening : lexeme.token = .opening)
      (full : limit ≤ level) : Fails limit level [] lexeme (.tooDeep limit lexeme.start)
  | unmatchedClosing {level : Nat} {lexeme : Lexeme} (closing : lexeme.token = .closing) :
      Fails limit level [] lexeme (.unmatchedClosing lexeme.start)
  | unknownAtom {level : Nat} {lexeme : Lexeme} {text : String} (atom : lexeme.token = .atom text)
      (unknown : ofAtom text lexeme.start = .error (.unknownAtom text lexeme.start)) :
      Fails limit level [] lexeme (.unknownAtom text lexeme.start)
  | inside {level : Nat} {tokens : List Token} {lexeme : Lexeme} {fault : Malformed}
      (room : level < limit) (inner : MembersFail limit (level + 1) tokens lexeme fault) :
      Fails limit level (.opening :: tokens) lexeme fault

/-- Tokens of a group behind its parenthesis, and behind them a lexeme at which it is at fault. -/
inductive MembersFail (limit : Nat) : Nat → List Token → Lexeme → Malformed → Prop where
  | here {level : Nat} {tokens : List Token} {lexeme : Lexeme} {fault : Malformed}
      (other : (tokens ++ [lexeme.token]).head? ≠ some .closing)
      (inner : Fails limit level tokens lexeme fault) : MembersFail limit level tokens lexeme fault
  | later {level : Nat} {expr : Expr} {front tokens : List Token} {lexeme : Lexeme}
      {fault : Malformed} (head : Spelling expr front) (shallow : expr.depth ≤ limit - level)
      (tail : MembersFail limit level tokens lexeme fault) :
      MembersFail limit level (front ++ tokens) lexeme fault

end

mutual

theorem Fails.blames {limit level : Nat} {tokens : List Token} {lexeme : Lexeme}
    {fault : Malformed} (fails : Fails limit level tokens lexeme fault) : fault.Blames lexeme := by
  match fails with
  | .tooDeep opening _ => exact .tooDeep limit opening
  | .unmatchedClosing closing => exact .unmatchedClosing closing
  | .unknownAtom atom _ => exact .unknownAtom atom
  | .inside _ inner => exact inner.blames

theorem MembersFail.blames {limit level : Nat} {tokens : List Token} {lexeme : Lexeme}
    {fault : Malformed} (fails : MembersFail limit level tokens lexeme fault) :
    fault.Blames lexeme := by
  match fails with
  | .here _ inner => exact inner.blames
  | .later _ _ tail => exact tail.blames

end

mutual

/--
Where no element can be read, the lexemes end inside a group after all of them were taken, or the
last lexeme taken is at fault.
-/
theorem fails_of_element {limit level : Nat} {first : Lexeme} {rest : List Lexeme}
    {fault : Malformed} (failed : element limit level first rest = .error fault) :
    (∃ position, fault = .unclosed position ∧ ∀ index,
      visits limit level index first rest = List.range' index (first :: rest).length) ∨
    ∃ before lexeme after, first :: rest = before ++ lexeme :: after ∧
      Fails limit level (before.map Lexeme.token) lexeme fault ∧ ∀ index,
        visits limit level index first rest = List.range' index (before.length + 1) := by
  rw [element] at failed
  split at failed
  · next opening =>
      split at failed
      · next full =>
          cases failed
          refine .inr ⟨[], first, rest, rfl, .tooDeep opening full, fun index => ?_⟩
          rw [visits, if_neg fun room => Nat.not_lt.mpr full room.2]
          rfl
      · next room =>
          split at failed
          · next inner =>
              cases failed
              have taken (index : Nat) : visits limit level index first rest =
                  index :: memberVisits limit (level + 1) (index + 1) rest := by
                rw [visits, if_pos ⟨opening, Nat.not_le.mp room⟩]
              rcases members_fail inner with
                ⟨position, rfl, all⟩ | ⟨before, lexeme, after, rfl, fails, upTo⟩
              · refine .inl ⟨position, rfl, fun index => ?_⟩
                rw [taken, all, ← List.range'_succ, List.length_cons]
              · refine .inr ⟨first :: before, lexeme, after, rfl, ?_, fun index => ?_⟩
                · rw [List.map_cons, opening]
                  exact .inside (Nat.not_le.mp room) fails
                · rw [taken, upTo, ← List.range'_succ, List.length_cons]
          · cases failed
  · next closing =>
      cases failed
      refine .inr ⟨[], first, rest, rfl, .unmatchedClosing closing, fun index => ?_⟩
      rw [visits, if_neg (by simp [closing])]
      rfl
  · next text atom =>
      split at failed
      · next unknown =>
          cases failed
          obtain rfl := ofAtom_eq_error unknown
          refine .inr ⟨[], first, rest, rfl, .unknownAtom atom unknown, fun index => ?_⟩
          rw [visits, if_neg (by simp [atom])]
          rfl
      · cases failed
  termination_by (rest.length + 1, 0)

/-- Where the members of a group cannot be read, the same holds of the lexemes behind it. -/
theorem members_fail {limit level opened : Nat} {lexemes : List Lexeme} {fault : Malformed}
    (failed : members limit level opened lexemes = .error fault) :
    (∃ position, fault = .unclosed position ∧ ∀ index,
      memberVisits limit level index lexemes = List.range' index lexemes.length) ∨
    ∃ before lexeme after, lexemes = before ++ lexeme :: after ∧
      MembersFail limit level (before.map Lexeme.token) lexeme fault ∧ ∀ index,
        memberVisits limit level index lexemes = List.range' index (before.length + 1) := by
  match lexemes with
  | [] =>
      rw [members] at failed
      cases failed
      refine .inl ⟨opened, rfl, fun index => ?_⟩
      rw [memberVisits]
      rfl
  | first :: rest =>
      rw [members] at failed
      split at failed
      · cases failed
      · next other =>
          split at failed
          · next head =>
              cases failed
              have taken (index : Nat) : memberVisits limit level index (first :: rest) =
                  visits limit level index first rest := by
                rw [memberVisits, if_neg other, head, List.append_nil]
              rcases fails_of_element head with
                ⟨position, rfl, all⟩ | ⟨before, lexeme, after, whole, fails, upTo⟩
              · exact .inl ⟨position, rfl, fun index => (taken index).trans (all index)⟩
              · refine .inr ⟨before, lexeme, after, whole, .here ?_ fails,
                  fun index => (taken index).trans (upTo index)⟩
                have starts := congrArg (fun all => (all.map Lexeme.token).head?) whole
                cases before <;> simp_all
          · next child middle shorter head =>
              split at failed
              · next tail =>
                  cases failed
                  obtain ⟨front, whole, spelled, shallow⟩ := element_sound head
                  have taken (index : Nat) : memberVisits limit level index (first :: rest) =
                      List.range' index front.length ++
                        memberVisits limit level (index + front.length) middle := by
                    have length : (first :: rest).length - middle.length = front.length := by
                      rw [whole, List.length_append, Nat.add_sub_cancel]
                    rw [memberVisits, if_neg other, visits_of_element head index, head]
                    dsimp only
                    rw [length]
                  rcases members_fail tail with
                    ⟨position, rfl, all⟩ | ⟨before, lexeme, after, rfl, fails, upTo⟩
                  · refine .inl ⟨position, rfl, fun index => ?_⟩
                    rw [taken, all, List.range'_append_1, whole, List.length_append]
                  · refine .inr ⟨front ++ before, lexeme, after, ?_, ?_, fun index => ?_⟩
                    · rw [whole, List.append_assoc]
                    · rw [List.map_append]
                      exact .later spelled shallow fails
                    · rw [taken, upTo, List.range'_append_1, List.length_append, Nat.add_assoc]
              · cases failed
  termination_by (lexemes.length, 1)

end

/-- A front of no tokens ends where it starts. -/
theorem eq_of_spelled_nil {first lexeme : Lexeme} {rest before after : List Lexeme}
    (whole : first :: rest = before ++ lexeme :: after)
    (spelled : before.map Lexeme.token = []) : first = lexeme ∧ rest = after := by
  rw [List.map_eq_nil_iff] at spelled
  subst spelled
  exact List.cons.inj whole

mutual

/-- A front of an element that ends with a lexeme at fault is at fault whatever comes behind it. -/
theorem Fails.element_eq {limit level : Nat} {tokens : List Token} {lexeme : Lexeme}
    {fault : Malformed} (fails : Fails limit level tokens lexeme fault) {first : Lexeme}
    {rest before after : List Lexeme} (whole : first :: rest = before ++ lexeme :: after)
    (spelled : before.map Lexeme.token = tokens) :
    element limit level first rest = .error fault := by
  match fails with
  | .tooDeep opening full =>
      obtain ⟨rfl, rfl⟩ := eq_of_spelled_nil whole spelled
      rw [element]
      simp [opening, full]
  | .unmatchedClosing closing =>
      obtain ⟨rfl, rfl⟩ := eq_of_spelled_nil whole spelled
      rw [element]
      simp [closing]
  | .unknownAtom atom unknown =>
      obtain ⟨rfl, rfl⟩ := eq_of_spelled_nil whole spelled
      rw [element]
      simp [atom, unknown]
  | .inside room inner =>
      obtain ⟨opening, others, rfl, opens, spelledInside⟩ := List.map_eq_cons_iff.mp spelled
      obtain ⟨rfl, rfl⟩ := List.cons.inj whole
      rw [element]
      simp [opens, Nat.not_le.mpr room, inner.members_eq first.start spelledInside after]

/-- Members up to a lexeme at fault are at fault whatever comes behind it. -/
theorem MembersFail.members_eq {limit level : Nat} {tokens : List Token} {lexeme : Lexeme}
    {fault : Malformed} (fails : MembersFail limit level tokens lexeme fault) (opened : Nat)
    {before : List Lexeme} (spelled : before.map Lexeme.token = tokens) (after : List Lexeme) :
    members limit level opened (before ++ lexeme :: after) = .error fault := by
  match fails with
  | .here other inner =>
      obtain ⟨first, rest, whole⟩ : ∃ first rest, before ++ lexeme :: after = first :: rest :=
        List.exists_cons_of_ne_nil (by simp)
      have notClosing : first.token ≠ .closing := by
        subst spelled
        cases before <;> simp_all
      rw [whole, members, if_neg notClosing, inner.element_eq whole.symm spelled]
  | .later head shallow tail =>
      obtain ⟨front, back, rfl, spelledFront, spelledBack⟩ := List.map_eq_append_iff.mp spelled
      obtain ⟨start, others, starts, notClosing⟩ := head.head
      rw [starts] at spelledFront
      obtain ⟨first, rest, rfl, isStart, _⟩ := List.map_eq_cons_iff.mp spelledFront
      have whole : first :: (rest ++ (back ++ lexeme :: after)) =
          (first :: rest) ++ (back ++ lexeme :: after) := rfl
      obtain ⟨_, found⟩ := head.element_eq shallow whole (by rw [spelledFront, starts])
      rw [List.append_assoc, List.cons_append, members, if_neg (isStart ▸ notClosing), found]
      simp [tail.members_eq opened spelledBack after]

end

/-! ## Elements at an index -/

/-- Reads the element at an index, up to the index behind it. There is none where no lexeme is. -/
def elementAt? (limit level : Nat) (lexemes : List Lexeme) (index : Nat) :
    Option (Except Malformed (Nat × Expr)) :=
  match lexemes.drop index with
  | [] => none
  | first :: rest =>
      some <| (element limit level first rest).map fun found =>
        (index + ((first :: rest).length - found.2.val.length), found.1)

/-- The indices of the lexemes that reading the element at an index takes. -/
def visitsAt (limit level : Nat) (lexemes : List Lexeme) (index : Nat) : List Nat :=
  match lexemes.drop index with
  | [] => []
  | first :: rest => visits limit level index first rest

/-- The element at an index is read up to another index, and no lexeme outside of these counts. -/
structure ReadsUpTo (limit level : Nat) (lexemes : List Lexeme) (index stop : Nat)
    (expr : Expr) : Prop where
  progress : index < stop
  stop_le : stop ≤ lexemes.length
  segment : Lexeme.IsSegment (lexemes.extract index stop)
  visits : visitsAt limit level lexemes index = List.range' index (stop - index)
  local_of : ∀ others : List Lexeme,
    (others.extract index stop).map Lexeme.token = (lexemes.extract index stop).map Lexeme.token →
      elementAt? limit level others index = some (.ok (stop, expr))

/-- The element at an index is at fault at a place, and no lexeme outside of these two counts. -/
structure FailsAt (limit level : Nat) (lexemes : List Lexeme) (index place : Nat) (lexeme : Lexeme)
    (fault : Malformed) : Prop where
  index_le : index ≤ place
  atPlace : lexemes[place]? = some lexeme
  blames : fault.Blames lexeme
  visits : visitsAt limit level lexemes index = List.range' index (place + 1 - index)
  local_of : ∀ others : List Lexeme,
    (others.extract index place).map Lexeme.token = (lexemes.extract index place).map Lexeme.token →
      others[place]? = some lexeme → elementAt? limit level others index = some (.error fault)

section Extract

variable {limit level index stop : Nat} {tokens : List Token} {lexemes : List Lexeme}

theorem Spelling.elementAt?_eq {expr : Expr} (spelling : Spelling expr tokens)
    (shallow : expr.depth ≤ limit - level)
    (spelled : (lexemes.extract index stop).map Lexeme.token = tokens) :
    elementAt? limit level lexemes index = some (.ok (index + tokens.length, expr)) := by
  obtain ⟨start, others, starts, -⟩ := spelling.head
  have split := List.take_append_drop (stop - index) (lexemes.drop index)
  rw [List.extract_eq_take_drop] at spelled
  obtain ⟨first, rest, taken, -, -⟩ := List.map_eq_cons_iff.mp (spelled.trans starts)
  rw [taken] at split spelled
  obtain ⟨shorter, found⟩ := spelling.element_eq shallow (List.cons_append ..).symm spelled
  have length := congrArg List.length spelled
  rw [elementAt?, ← split, List.cons_append]
  dsimp only
  rw [found, ← length]
  simp only [Except.map, List.length_map, List.length_cons, List.length_append]
  congr 4
  omega

theorem Fails.elementAt?_eq {place : Nat} {lexeme : Lexeme} {fault : Malformed}
    (fails : Fails limit level tokens lexeme fault) (behind : index ≤ place)
    (atPlace : lexemes[place]? = some lexeme)
    (spelled : (lexemes.extract index place).map Lexeme.token = tokens) :
    elementAt? limit level lexemes index = some (.error fault) := by
  have split := List.take_append_drop (place - index) (lexemes.drop index)
  obtain ⟨inside, rfl⟩ := List.getElem?_eq_some_iff.mp atPlace
  rw [List.drop_drop, Nat.add_sub_cancel' behind, List.drop_eq_getElem_cons inside] at split
  obtain ⟨first, rest, remaining⟩ : ∃ first rest, lexemes.drop index = first :: rest := by
    apply List.exists_cons_of_ne_nil
    rw [← split]
    exact List.append_ne_nil_of_right_ne_nil _ (List.cons_ne_nil _ _)
  rw [List.extract_eq_take_drop] at spelled
  rw [remaining] at split spelled
  have failed := fails.element_eq split.symm spelled
  rw [elementAt?, remaining]
  dsimp only
  rw [failed]
  rfl

theorem extract_of_drop {taken after : List Lexeme} (whole : lexemes.drop index = taken ++ after) :
    lexemes.extract index (index + taken.length) = taken := by
  rw [List.extract_eq_take_drop, Nat.add_sub_cancel_left, whole, List.take_left]

variable {first : Lexeme} {rest : List Lexeme} (remaining : lexemes.drop index = first :: rest)

include remaining

theorem readsUpTo_of_element {expr : Expr} {after : Remainder (first :: rest)}
    (found : element limit level first rest = .ok (expr, after)) :
    ReadsUpTo limit level lexemes index
      (index + ((first :: rest).length - after.val.length)) expr := by
  obtain ⟨taken, whole, spelled, shallow⟩ := element_sound found
  have lengths := congrArg List.length whole
  rw [List.length_append] at lengths
  have count : (first :: rest).length - after.val.length = taken.length := by omega
  have positive : 0 < taken.length := by
    rw [← count]
    exact Nat.sub_pos_of_lt after.property
  have extracted := extract_of_drop (remaining.trans whole)
  have total := congrArg List.length (remaining.trans whole)
  rw [List.length_drop, List.length_append] at total
  have visited := visits_of_element found index
  rw [count] at visited ⊢
  refine ⟨Nat.lt_add_of_pos_right positive, by omega, ?_, ?_, fun others same => ?_⟩
  · rw [extracted]
    exact spelled.isSegment rfl
  · rw [visitsAt, remaining, Nat.add_sub_cancel_left]
    exact visited
  · rw [extracted] at same
    have read := spelled.elementAt?_eq shallow same
    rwa [List.length_map] at read

theorem failsAt_of_fails {before after : List Lexeme} {lexeme : Lexeme} {fault : Malformed}
    (whole : first :: rest = before ++ lexeme :: after)
    (fails : Fails limit level (before.map Lexeme.token) lexeme fault)
    (visited : visits limit level index first rest = List.range' index (before.length + 1)) :
    FailsAt limit level lexemes index (index + before.length) lexeme fault := by
  have extracted := extract_of_drop (remaining.trans whole)
  refine ⟨Nat.le_add_right _ _, ?_, fails.blames, ?_, fun others same atPlace => ?_⟩
  · rw [← List.getElem?_drop, remaining, whole, List.getElem?_append_right (Nat.le_refl _),
      Nat.sub_self]
    rfl
  · rw [visitsAt, remaining, Nat.add_assoc, Nat.add_sub_cancel_left]
    exact visited
  · rw [extracted] at same
    exact fails.elementAt?_eq (Nat.le_add_right _ _) atPlace same

end Extract

/--
Reading the element at an index takes lexemes from there on, each of them once. An element that is
read is an atom or a group up to the parenthesis that matches its first one, and whatever lexemes stand
before or behind it, it is read the same. An element that is not read is at fault at the last lexeme
that was taken, whatever stands behind that one, unless the lexemes end inside a group.
-/
theorem elementAt?_local (limit level : Nat) (lexemes : List Lexeme) (index : Nat) :
    match elementAt? limit level lexemes index with
    | none => lexemes.length ≤ index
    | some (.ok (stop, expr)) => ReadsUpTo limit level lexemes index stop expr
    | some (.error fault) =>
        (∃ position, fault = .unclosed position ∧
          visitsAt limit level lexemes index = List.range' index (lexemes.length - index)) ∨
        ∃ place lexeme, FailsAt limit level lexemes index place lexeme fault := by
  cases remaining : lexemes.drop index with
  | nil =>
      simp only [elementAt?, remaining]
      exact List.drop_eq_nil_iff.mp remaining
  | cons first rest =>
      cases outcome : element limit level first rest with
      | ok found =>
          simp only [elementAt?, remaining, outcome, Except.map]
          exact readsUpTo_of_element remaining outcome
      | error fault =>
          simp only [elementAt?, remaining, outcome, Except.map]
          rcases fails_of_element outcome with
            ⟨position, rfl, all⟩ | ⟨before, lexeme, after, whole, fails, upTo⟩
          · refine .inl ⟨position, rfl, ?_⟩
            rw [visitsAt, remaining, ← List.length_drop, remaining]
            exact all index
          · exact .inr ⟨_, lexeme, failsAt_of_fails remaining whole fails (upTo index)⟩

end Expr

end PrefixArith
