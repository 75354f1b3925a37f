import PrefixArith.Calculator
import PrefixArith.Proofs.Expr.Spelling
import PrefixArith.Proofs.Numeral
import PrefixArith.Proofs.Token.Division

/-!
# Printed expressions are read back

The text of an expression is divided into the tokens it is made of: the text of a leaf is one atom,
and in the text of a group neither a parenthesis nor a space lets two atoms run together. The tokens
determine the expression. If all its numbers are finite they spell it, so that a reader that allows
its depth reads it back from its text.
-/

namespace PrefixArith

theorem Operator.symbol_injective : Function.Injective symbol := by
  intro left right same
  have named (op : Operator) : ofSymbol? op.symbol = some op := by cases op <;> rfl
  exact Option.some.inj ((named left).symm.trans ((congrArg _ same).trans (named right)))

namespace Expr

mutual

/-- Whether every number in an expression is finite. -/
def isFinite : Expr → Bool
  | number value => value.isFinite
  | operator _ => true
  | group members => areFinite members

/-- Whether every number in several expressions is finite. -/
def areFinite : List Expr → Bool
  | [] => true
  | first :: rest => isFinite first && areFinite rest

end

mutual

/-- The tokens that an expression is made of. -/
def tokens : Expr → List Token
  | number value => [.atom (String.ofList (Numeral.plain.text value))]
  | operator op => [.atom op.symbol]
  | group members => .opening :: (allTokens members ++ [.closing])

/-- The tokens of several expressions. -/
def allTokens : List Expr → List Token
  | [] => []
  | first :: rest => tokens first ++ allTokens rest

end

/-! ## Division of a text -/

theorem precedes_plain_text (value : Binary64) :
    (Token.atom (String.ofList (Numeral.plain.text value))).Precedes [] := by
  refine ⟨?_, ?_, nofun⟩
  · rw [String.toList_ofList]
    exact Numeral.plain_text_ne_nil value
  · intro character member
    rw [String.toList_ofList] at member
    exact Numeral.isAtomCharacter_of_mem_plain_text member

theorem precedes_symbol (op : Operator) : (Token.atom op.symbol).Precedes [] := by
  have characters : op.symbol.toList ≠ [] ∧
      op.symbol.toList.all Token.isAtomCharacter = true := by
    cases op <;> exact ⟨by simp [Operator.symbol], rfl⟩
  exact ⟨characters.1, List.all_eq_true.mp characters.2, nofun⟩

/-- A whole text that is one atom is divided into that atom. -/
theorem exists_division_of_atom {text : String} (precedes : (Token.atom text).Precedes [])
    (position : Nat) :
    ∃ lexemes, Lexeme.Division position text.toList lexemes ∧
      lexemes.map Lexeme.token = [.atom text] := by
  have division := Lexeme.Division.token precedes (.done (position + Text.size text.toList))
  rw [List.append_nil] at division
  exact ⟨_, division, rfl⟩

mutual

/-- The text of an expression is divided into its tokens. -/
theorem exists_division (expr : Expr) (position : Nat) :
    ∃ lexemes, Lexeme.Division position expr.text lexemes ∧
      lexemes.map Lexeme.token = expr.tokens := by
  match expr with
  | number value =>
      have divided := exists_division_of_atom (precedes_plain_text value) position
      rwa [String.toList_ofList] at divided
  | operator op => exact exists_division_of_atom (precedes_symbol op) position
  | group members =>
      obtain ⟨lexemes, inner, made⟩ :=
        exists_divisions members (position + Text.size Token.opening.text.toList)
      have close : Token.closing.Precedes [] := trivial
      have closed := inner.append (.token close (.done _)) (by rintro _ ⟨⟩; rfl)
      have opens : Token.opening.Precedes ([' '].intercalate (texts members) ++ [')']) := trivial
      have whole := Lexeme.Division.token opens closed
      refine ⟨_, whole, ?_⟩
      rw [List.map_cons, List.map_append, made]
      rfl

/-- The texts of several expressions, one space apart, are divided into their tokens. -/
theorem exists_divisions (members : List Expr) (position : Nat) :
    ∃ lexemes, Lexeme.Division position ([' '].intercalate (texts members)) lexemes ∧
      lexemes.map Lexeme.token = allTokens members := by
  match members with
  | [] => exact ⟨[], .done position, rfl⟩
  | [only] =>
      obtain ⟨lexemes, division, made⟩ := exists_division only position
      refine ⟨lexemes, by rwa [texts, texts, List.intercalate_singleton], ?_⟩
      rw [allTokens, allTokens, List.append_nil, made]
  | first :: second :: rest =>
      obtain ⟨lexemes, division, made⟩ := exists_division first position
      obtain ⟨others, divisions, othersMade⟩ := exists_divisions (second :: rest)
        (position + Text.size first.text + ' '.utf8Size)
      have separated := Lexeme.Division.separator rfl divisions
      have space : ∀ character ∈ (' ' :: [' '].intercalate (texts (second :: rest))).head?,
          Token.isAtomCharacter character = false := by
        rintro _ ⟨⟩
        rfl
      refine ⟨lexemes ++ others, ?_, ?_⟩
      · rw [texts, texts, List.intercalate_cons_cons, ← texts, List.append_assoc]
        exact division.append separated space
      · rw [List.map_append, made, othersMade, ← allTokens]

end

/-! ## Spelling -/

theorem ofAtom_plain_text {value : Binary64} (finite : value.isFinite = true) (position : Nat) :
    ofAtom (String.ofList (Numeral.plain.text value)) position = .ok (number value) := by
  rw [ofAtom, String.toList_ofList, Numeral.read?_plain_text finite]

theorem ofAtom_symbol (op : Operator) (position : Nat) :
    ofAtom op.symbol position = .ok (operator op) := by
  cases op <;> rfl

mutual

/-- The tokens of an expression whose numbers are finite spell it. -/
theorem spelling_tokens {expr : Expr} (finite : expr.isFinite = true) :
    Spelling expr expr.tokens := by
  match expr with
  | number value =>
      rw [isFinite] at finite
      exact .leaf (ofAtom_plain_text finite)
  | operator op => exact .leaf (ofAtom_symbol op)
  | group members =>
      rw [isFinite] at finite
      exact .group (spellings_allTokens finite)

theorem spellings_allTokens {members : List Expr} (finite : areFinite members = true) :
    Spellings members (allTokens members) := by
  match members with
  | [] => exact .nil
  | first :: rest =>
      rw [areFinite, Bool.and_eq_true] at finite
      exact .cons (spelling_tokens finite.1) (spellings_allTokens finite.2)

end

theorem exists_division_spelling {expr : Expr} (finite : expr.isFinite = true) (position : Nat) :
    ∃ lexemes, Lexeme.Division position expr.text lexemes ∧
      Spelling expr (lexemes.map Lexeme.token) := by
  obtain ⟨lexemes, division, made⟩ := expr.exists_division position
  exact ⟨lexemes, division, made ▸ spelling_tokens finite⟩

/-! ## Expressions with the same text -/

/-- No double is written as an operator is. -/
theorem plain_text_ne_symbol (value : Binary64) (op : Operator) :
    String.ofList (Numeral.plain.text value) ≠ op.symbol := by
  intro same
  cases finite : value.isFinite with
  | true =>
      have read := (ofAtom_plain_text finite 0).symm.trans (same ▸ ofAtom_symbol op 0)
      cases read
  | false =>
      have other : ∀ pair ∈ Numeral.nonFinites, pair.2 ≠ op.symbol.toList := by
        cases op <;> decide
      exact other _ (Numeral.mem_nonFinites finite) (by rw [← same, String.toList_ofList])

/-- What an expression is made of does not start with a closing parenthesis. -/
theorem tokens_append_ne (expr : Expr) (rest otherRest : List Token) :
    expr.tokens ++ rest ≠ .closing :: otherRest := by
  intro same
  cases expr with
  | number value => cases (List.cons.inj same).1
  | operator op => cases (List.cons.inj same).1
  | group members => cases (List.cons.inj same).1

mutual

/-- The tokens of an expression determine it, and where it ends. -/
theorem eq_of_tokens_append (left right : Expr) {rest otherRest : List Token}
    (same : left.tokens ++ rest = right.tokens ++ otherRest) : left = right ∧ rest = otherRest := by
  match left, right with
  | number left, number right =>
      obtain ⟨atoms, rests⟩ := List.cons.inj same
      have texts := String.ofList_injective (Token.atom.inj atoms)
      exact ⟨congrArg number (Numeral.eq_of_plain_text_eq texts), rests⟩
  | operator left, operator right =>
      obtain ⟨atoms, rests⟩ := List.cons.inj same
      exact ⟨congrArg operator (Operator.symbol_injective (Token.atom.inj atoms)), rests⟩
  | group lefts, group rights =>
      have inner := (List.cons.inj same).2
      rw [List.append_eq, List.append_eq, List.append_assoc, List.append_assoc] at inner
      obtain ⟨members, rests⟩ := eq_of_allTokens_append lefts rights inner
      exact ⟨congrArg group members, rests⟩
  | number value, operator op =>
      exact absurd (Token.atom.inj (List.cons.inj same).1) (plain_text_ne_symbol value op)
  | operator op, number value =>
      exact absurd (Token.atom.inj (List.cons.inj same).1).symm (plain_text_ne_symbol value op)
  | number _, group _ => cases (List.cons.inj same).1
  | operator _, group _ => cases (List.cons.inj same).1
  | group _, number _ => cases (List.cons.inj same).1
  | group _, operator _ => cases (List.cons.inj same).1

/-- The tokens of the members of a group determine them, up to the parenthesis that closes it. -/
theorem eq_of_allTokens_append (lefts rights : List Expr) {rest otherRest : List Token}
    (same : allTokens lefts ++ (.closing :: rest) = allTokens rights ++ (.closing :: otherRest)) :
    lefts = rights ∧ rest = otherRest := by
  match lefts, rights with
  | [], [] => exact ⟨rfl, (List.cons.inj same).2⟩
  | [], right :: rights =>
      rw [allTokens, allTokens, List.append_assoc] at same
      exact absurd same.symm (tokens_append_ne right _ _)
  | left :: lefts, [] =>
      rw [allTokens, allTokens, List.append_assoc] at same
      exact absurd same (tokens_append_ne left _ _)
  | left :: lefts, right :: rights =>
      rw [allTokens, allTokens, List.append_assoc, List.append_assoc] at same
      obtain ⟨rfl, others⟩ := eq_of_tokens_append left right same
      obtain ⟨rfl, rests⟩ := eq_of_allTokens_append lefts rights others
      exact ⟨rfl, rests⟩

end

/-- Different expressions have different texts, whatever their numbers are. -/
theorem text_injective : Function.Injective text := by
  intro left right same
  obtain ⟨lexemes, division, made⟩ := left.exists_division 0
  obtain ⟨others, otherDivision, otherMade⟩ := right.exists_division 0
  rw [same] at division
  obtain rfl := Except.ok.inj (division.readFrom_eq.symm.trans otherDivision.readFrom_eq)
  exact (@eq_of_tokens_append left right [] [] (by rw [← made, otherMade])).1

end Expr

namespace Calculator

/--
An expression whose numbers are finite is what is read from its text, by every calculator that lets
groups nest as deep as it does.
-/
theorem read_text (calculator : Calculator) {expr : Expr} (finite : expr.isFinite = true)
    (shallow : expr.depth ≤ calculator.settings.maxDepth) :
    calculator.read (String.ofList expr.text) = .ok expr := by
  obtain ⟨lexemes, division, spelling⟩ := Expr.exists_division_spelling finite 0
  rw [← String.toList_ofList (l := expr.text)] at division
  exact Expr.Spelling.read_eq division spelling shallow

theorem read_text_of_groups :
    standard.read "(() - (() -0 1.5) max)" =
      .ok (.group [.group [], .operator .subtract,
        .group [.group [], .number (.signed true .zero),
          .number (.signed false (.ofPlace 0x3FF8000000000000))],
        .operator .max]) := by
  refine (congrArg standard.read ?_).trans (read_text standard ?finite ?shallow)
  case finite => decide
  case shallow => decide
  decide +kernel

end Calculator

end PrefixArith
