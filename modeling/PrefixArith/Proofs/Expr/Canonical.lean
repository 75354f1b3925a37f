import PrefixArith.Proofs.Expr.RoundTrip
import PrefixArith.Proofs.Expr.Threshold

/-!
# Expressions that are read are canonical

Whatever the layout of a text and the notation of its numbers, the expression that is read from it
holds finite numbers and operators of the table alone. Its groups are the opening parentheses of the
text and nest as deep as the parentheses of the text do, so its own text, which is canonical, is read
back as the same expression under the same limit.
-/

namespace PrefixArith

namespace Text

/-- How many more parentheses a text opens than it closes. -/
def level (text : List Char) : Int :=
  (text.count '(' : Int) - text.count ')'

/-- The levels of parentheses that a text reaches anywhere. -/
def levels (text : List Char) : Set Int :=
  {height | ∃ front, front <+: text ∧ level front = height}

@[simp]
theorem level_append (left right : List Char) :
    level (left ++ right) = level left + level right := by
  simp only [level, List.count_append]
  omega

/-- A text without parentheses stays on its level. -/
theorem level_eq_zero {text : List Char} (opening : '(' ∉ text) (closing : ')' ∉ text) :
    level text = 0 := by
  rw [level, List.count_eq_zero_of_not_mem opening, List.count_eq_zero_of_not_mem closing]
  rfl

end Text

namespace Token

variable {token : Token} {rest : List Char}

/-- A token at the front of a text is one parenthesis, or it holds none. -/
theorem Precedes.count (precedes : token.Precedes rest) :
    token.text.toList.count '(' = [token].count .opening ∧
      token.text.toList.count ')' = [token].count .closing := by
  cases token with
  | opening => decide
  | closing => decide
  | atom word =>
      obtain ⟨-, inside, -⟩ := precedes
      have noOpening : '(' ∉ word.toList := fun member => nomatch inside '(' member
      have noClosing : ')' ∉ word.toList := fun member => nomatch inside ')' member
      exact ⟨List.count_eq_zero_of_not_mem noOpening, List.count_eq_zero_of_not_mem noClosing⟩

theorem Precedes.level_text (precedes : token.Precedes rest) :
    Text.level token.text.toList = token.rise := by
  rw [Text.level, precedes.count.1, precedes.count.2]
  cases token <;> rfl

/-- The level of parentheses does not change inside a token. -/
theorem Precedes.level_of_prefix (precedes : token.Precedes rest) {front : List Char}
    (isFront : front <+: token.text.toList) :
    Text.level front = 0 ∨ front = token.text.toList := by
  cases token with
  | opening =>
      rcases List.prefix_cons_iff.mp isFront with rfl | ⟨inner, rfl, isInner⟩
      · exact .inl rfl
      · exact .inr (by rw [List.prefix_nil.mp isInner]; rfl)
  | closing =>
      rcases List.prefix_cons_iff.mp isFront with rfl | ⟨inner, rfl, isInner⟩
      · exact .inl rfl
      · exact .inr (by rw [List.prefix_nil.mp isInner]; rfl)
  | atom word =>
      obtain ⟨-, inside, -⟩ := precedes
      refine .inl (Text.level_eq_zero (fun member => ?_) fun member => ?_)
      · exact nomatch inside '(' (isFront.subset member)
      · exact nomatch inside ')' (isFront.subset member)

/-- A text is cut inside the token at its front, where the level is zero, or behind it. -/
theorem Precedes.prefix_cases (precedes : token.Precedes rest) {front : List Char}
    (isFront : front <+: token.text.toList ++ rest) :
    Text.level front = 0 ∨ ∃ inner, inner <+: rest ∧ front = token.text.toList ++ inner := by
  rcases List.prefix_or_prefix_of_prefix isFront (List.prefix_append _ rest) with inside | behind
  · rcases precedes.level_of_prefix inside with level | rfl
    · exact .inl level
    · exact .inr ⟨[], List.nil_prefix, (List.append_nil _).symm⟩
  · obtain ⟨inner, rfl⟩ := behind
    exact .inr ⟨inner, (List.prefix_append_right_inj _).mp isFront, rfl⟩

end Token

namespace Lexeme

namespace Division

variable {position : Nat} {text : List Char} {lexemes : List Lexeme}

/-- A separator is no parenthesis. -/
theorem count_separator {start : Char} (separates : Text.isSeparator start = true)
    (rest : List Char) :
    (start :: rest).count '(' = rest.count '(' ∧ (start :: rest).count ')' = rest.count ')' := by
  have notOpening : start ≠ '(' := by
    rintro rfl
    cases separates
  have notClosing : start ≠ ')' := by
    rintro rfl
    cases separates
  exact ⟨List.count_cons_of_ne notOpening, List.count_cons_of_ne notClosing⟩

/-- The opening parentheses of a text are lexemes. -/
theorem count_opening (division : Division position text lexemes) :
    text.count '(' = (lexemes.map Lexeme.token).count .opening := by
  induction division with
  | done position => rfl
  | separator separates others ih => rw [(count_separator separates _).1, ih]
  | token precedes others ih =>
      rw [List.count_append, precedes.count.1, ih, List.map_cons, ← List.count_append]
      rfl

theorem level_separator {start : Char} (separates : Text.isSeparator start = true)
    (rest : List Char) : Text.level (start :: rest) = Text.level rest := by
  rw [Text.level, Text.level, (count_separator separates rest).1, (count_separator separates rest).2]

/-- A text and its lexemes end on the same level. -/
theorem level_eq (division : Division position text lexemes) :
    Text.level text = level lexemes := by
  induction division with
  | done position => rfl
  | separator separates others ih => rw [level_separator separates, ih]
  | token precedes others ih => rw [Text.level_append, precedes.level_text, ih, level_cons]

/-- Wherever a text is cut, some of its lexemes reach the level there. -/
theorem exists_front (division : Division position text lexemes) {front : List Char}
    (isFront : front <+: text) :
    ∃ reached, reached <+: lexemes ∧ level reached = Text.level front := by
  induction division generalizing front with
  | done position =>
      rw [List.prefix_nil.mp isFront]
      exact ⟨[], List.prefix_refl [], rfl⟩
  | separator separates others ih =>
      rcases List.prefix_cons_iff.mp isFront with rfl | ⟨inner, rfl, isInner⟩
      · exact ⟨[], List.nil_prefix, rfl⟩
      · rw [level_separator separates]
        exact ih isInner
  | token precedes others ih =>
      rcases precedes.prefix_cases isFront with level | ⟨inner, isInner, rfl⟩
      · exact ⟨[], List.nil_prefix, level.symm⟩
      · obtain ⟨reached, isReached, same⟩ := ih isInner
        refine ⟨_ :: reached, (List.prefix_cons_inj _).mpr isReached, ?_⟩
        rw [level_cons, same, Text.level_append, precedes.level_text]

/-- In front of each lexeme and behind the last, a text can be cut on the level of the lexemes. -/
theorem exists_cut (division : Division position text lexemes) {reached : List Lexeme}
    (isFront : reached <+: lexemes) :
    ∃ front, front <+: text ∧ Text.level front = level reached := by
  obtain ⟨after, rfl⟩ := isFront
  cases after with
  | nil =>
      rw [List.append_nil] at division
      exact ⟨text, List.prefix_refl text, division.level_eq⟩
  | cons next others =>
      obtain ⟨before, behind, rfl, -, divided, -⟩ := division.split
      exact ⟨before, List.prefix_append _ _, divided.level_eq⟩

/-- Where only a limit can find a fault, the levels of the text are those that the lexemes reach. -/
theorem isGreatest_levels (division : Division position text lexemes) (sound : Sound lexemes)
    {depth : Nat} (highest : IsGreatest (heights lexemes) depth) :
    IsGreatest (Text.levels text) depth := by
  obtain ⟨⟨reached, isReached, -, isDepth⟩, bound⟩ := highest
  constructor
  · obtain ⟨front, isFront, same⟩ := division.exists_cut isReached
    exact ⟨front, isFront, same.trans isDepth⟩
  · rintro height ⟨front, isFront, rfl⟩
    obtain ⟨reached, isReached, same⟩ := division.exists_front isFront
    have nonneg := sound.level_nonneg reached isReached
    have bounded : (Lexeme.level reached).toNat ≤ depth :=
      bound ⟨reached, isReached, sound.of_prefix isReached, (Int.toNat_of_nonneg nonneg).symm⟩
    omega

end Division

end Lexeme

namespace Expr

/-- The numbers of an expression are finite, and its operators are those of the table. -/
inductive IsWellFormed : Expr → Prop where
  | number {value : Binary64} (finite : value.isFinite = true) : IsWellFormed (number value)
  | operator {op : Operator} (listed : op ∈ Operator.all) : IsWellFormed (operator op)
  | group {members : List Expr} (each : ∀ member ∈ members, IsWellFormed member) :
      IsWellFormed (group members)

mutual

/-- The number of groups in an expression. -/
def groupCount : Expr → Nat
  | number _ => 0
  | operator _ => 0
  | group members => groupCounts members + 1

/-- The number of groups in several expressions. -/
def groupCounts : List Expr → Nat
  | [] => 0
  | first :: rest => groupCount first + groupCounts rest

end

mutual

theorem IsWellFormed.isFinite {expr : Expr} (wellFormed : expr.IsWellFormed) :
    expr.isFinite = true := by
  match expr, wellFormed with
  | number value, .number finite => exact finite
  | operator op, .operator listed => rfl
  | group members, .group each => exact areFinite_of_forall each

theorem areFinite_of_forall {members : List Expr}
    (each : ∀ member ∈ members, member.IsWellFormed) : areFinite members = true := by
  match members with
  | [] => rfl
  | first :: rest =>
      obtain ⟨head, tail⟩ := List.forall_mem_cons.mp each
      rw [areFinite, head.isFinite, areFinite_of_forall tail]
      rfl

end

/-- An atom stands for a finite number or for an operator of the table, not for a group. -/
theorem isWellFormed_of_ofAtom {text : String} {position : Nat} {leaf : Expr}
    (stands : ofAtom text position = .ok leaf) : leaf.IsWellFormed ∧ leaf.groupCount = 0 := by
  unfold ofAtom at stands
  split at stands
  · next value denoted =>
      cases stands
      exact ⟨.number (Option.filter_eq_some_iff.mp denoted).2, by rw [groupCount]⟩
  · split at stands
    · next op named =>
        cases stands
        exact ⟨.operator (List.mem_of_find?_eq_some named), by rw [groupCount]⟩
    · cases stands

mutual

/-- What tokens spell is well formed, with a group for each of their opening parentheses. -/
theorem Spelling.isWellFormed {expr : Expr} {tokens : List Token}
    (spelling : Spelling expr tokens) :
    expr.IsWellFormed ∧ expr.groupCount = tokens.count .opening := by
  match spelling with
  | .leaf stands => exact isWellFormed_of_ofAtom (stands 0)
  | .group inner =>
      obtain ⟨each, counts⟩ := inner.isWellFormed
      refine ⟨.group each, ?_⟩
      rw [groupCount, counts, List.count_cons_self, List.count_append]
      rfl

/-- Each of several expressions that tokens spell is well formed. -/
theorem Spellings.isWellFormed {exprs : List Expr} {tokens : List Token}
    (spellings : Spellings exprs tokens) :
    (∀ expr ∈ exprs, expr.IsWellFormed) ∧ groupCounts exprs = tokens.count .opening := by
  match spellings with
  | .nil => exact ⟨nofun, by rw [groupCounts]; rfl⟩
  | .cons head tail =>
      obtain ⟨first, count⟩ := head.isWellFormed
      obtain ⟨rest, counts⟩ := tail.isWellFormed
      refine ⟨List.forall_mem_cons.mpr ⟨first, rest⟩, ?_⟩
      rw [groupCounts, count, counts, List.count_append]

end

section Text

variable {text : String} {lexemes : List Lexeme} {limit : Nat} {expr : Expr}
  (division : Lexeme.Division 0 text.toList lexemes) (found : read limit text = .ok expr)

include division found

/-- Only another limit could find a fault in a text that is read as an expression. -/
theorem sound_of_read : Lexeme.Sound lexemes := by
  rw [read_eq division] at found
  split at found
  · cases found
  · obtain ⟨stop, single⟩ := ofLexemes_eq_ok_iff.mp found
    have scanned := firstFault?_of_single_ok single
    unfold firstFault? at scanned
    split at scanned
    · cases scanned
    · next last ran => exact (Scan.sound_of_run ran).1

/-- What is read under any limit nests as deep as the lexemes of the text reach. -/
theorem isGreatest_heights_of_read : IsGreatest (Lexeme.heights lexemes) expr.depth := by
  obtain ⟨depth, highest⟩ := Lexeme.exists_isGreatest_heights lexemes
  have within : depth ≤ limit := by
    by_contra deeper
    obtain ⟨opening, -, failed⟩ := read_of_lt division highest (Nat.not_le.mp deeper)
    rw [found] at failed
    cases failed
  rw [read_of_le division highest within] at found
  rwa [depth_of_read division highest found]

end Text

end Expr

namespace Calculator

/--
An expression that is read holds finite numbers and operators of the table alone. It has as many
groups as its text has opening parentheses; they nest as deep as the parentheses of the text do
anywhere, which is no deeper than the limit; and under the same limit it is read back from its own
text, so that reading and writing once leads to a text that both leave as it is.
-/
theorem read_canonical (calculator : Calculator) {text : String} {expr : Expr}
    (found : calculator.read text = .ok expr) :
    expr.IsWellFormed ∧
      expr.depth ≤ calculator.settings.maxDepth ∧
      IsGreatest (Text.levels text.toList) expr.depth ∧
      expr.groupCount = text.toList.count '(' ∧
      calculator.read (String.ofList expr.text) = .ok expr := by
  obtain ⟨lexemes, division⟩ := Lexeme.exists_division 0 text.toList
  obtain ⟨shallow, spelling⟩ := Expr.spelling_of_read division found
  obtain ⟨wellFormed, count⟩ := spelling.isWellFormed
  have highest := Expr.isGreatest_heights_of_read division found
  refine ⟨wellFormed, shallow, ?_, count.trans division.count_opening.symm, ?_⟩
  · exact division.isGreatest_levels (Expr.sound_of_read division found) highest
  · obtain ⟨printed, divided, spelled⟩ := Expr.exists_division_spelling wellFormed.isFinite 0
    rw [← String.toList_ofList (l := expr.text)] at divided
    exact Expr.Spelling.read_eq divided spelled shallow

/-- A radix literal in a loose layout is printed as a decimal, the groups as they are. -/
theorem read_canonical_of_literal :
    let number : Expr := .number (.signed false (.ofNat 31))
    let tree : Expr := .group [.operator .subtract, .group [.group []], number]
    standard.read "(\t-(())0x1F )" = .ok tree ∧
      IsGreatest (Text.levels "(\t-(())0x1F )".toList) 3 ∧
      standard.read "(- (()) 31)" = .ok tree := by
  intro number tree
  have divided : Lexeme.readFrom 0 "(\t-(())0x1F )".toList =
      .ok [⟨.opening, 0, 1⟩, ⟨.atom "-", 2, 3⟩, ⟨.opening, 3, 4⟩, ⟨.opening, 4, 5⟩,
        ⟨.closing, 5, 6⟩, ⟨.closing, 6, 7⟩, ⟨.atom "0x1F", 7, 11⟩, ⟨.closing, 12, 13⟩] := by
    decide +kernel
  have literal (position : Nat) : Expr.ofAtom "0x1F" position = .ok number := by
    have denoted : Numeral.read? "0x1F".toList = some (.signed false (.ofNat 31)) := by
      decide +kernel
    rw [Expr.ofAtom, denoted]
  have found : standard.read "(\t-(())0x1F )" = .ok tree :=
    Expr.Spelling.read_eq (Lexeme.readFrom_eq_ok_iff.mp divided)
      (.group (.cons (.leaf (Expr.ofAtom_symbol .subtract))
        (.cons (.group (.cons (.group .nil) .nil)) (.cons (.leaf literal) .nil))))
      (by decide)
  obtain ⟨-, -, highest, -, again⟩ := read_canonical standard found
  refine ⟨found, highest, (congrArg standard.read ?_).trans again⟩
  decide +kernel

end Calculator

end PrefixArith
