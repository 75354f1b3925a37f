import PrefixArith.Expr.Basic
import PrefixArith.Expr.Malformed
import PrefixArith.Text.Basic
import PrefixArith.Token.Lexeme

/-!
# Reading expressions

Lexemes are read from left to right into one expression. An atom is a number where it is a numeral
and an operator otherwise; a parenthesis opens a group up to the one that matches it, no deeper than
a limit. The first lexeme that cannot continue an expression is the fault that is reported.
-/

namespace PrefixArith

namespace Expr

/-- The number or the operator that an atom stands for. -/
def ofAtom (text : String) (position : Nat) : Except Malformed Expr :=
  match Numeral.read? text.toList with
  | some value => .ok (.number value)
  | none =>
      match Operator.ofSymbol? text with
      | some op => .ok (.operator op)
      | none => .error (.unknownAtom text position)

mutual

/-- Reads one expression at a nesting depth; `first` is its first lexeme. -/
def element (limit depth : Nat) (first : Lexeme) (rest : List Lexeme) :
    Except Malformed (Expr × Remainder (first :: rest)) :=
  match first.token with
  | .opening =>
      if limit ≤ depth then .error (.tooDeep limit first.start)
      else
        match members limit (depth + 1) first.start rest with
        | .error fault => .error fault
        | .ok (children, ⟨after, shorter⟩) =>
            .ok (.group children, ⟨after, Nat.lt_succ_of_lt shorter⟩)
  | .closing => .error (.unmatchedClosing first.start)
  | .atom text =>
      match ofAtom text first.start with
      | .error fault => .error fault
      | .ok leaf => .ok (leaf, ⟨rest, Nat.lt_succ_self _⟩)
  termination_by (rest.length + 1, 0)
  decreasing_by exact Prod.Lex.left _ _ (Nat.lt_succ_self _)

/-- Reads the members of a group, opened at a position, and the parenthesis that closes it. -/
def members (limit depth opened : Nat) (lexemes : List Lexeme) :
    Except Malformed (List Expr × Remainder lexemes) :=
  match lexemes with
  | [] => .error (.unclosed opened)
  | first :: rest =>
      if first.token = .closing then .ok ([], ⟨rest, Nat.lt_succ_self _⟩)
      else
        match element limit depth first rest with
        | .error fault => .error fault
        | .ok (child, ⟨middle, shorter⟩) =>
            match members limit depth opened middle with
            | .error fault => .error fault
            | .ok (children, ⟨after, shorterStill⟩) =>
                .ok (child :: children, ⟨after, Nat.lt_trans shorterStill shorter⟩)
  termination_by (lexemes.length, 1)
  decreasing_by
    · exact Prod.Lex.right _ Nat.zero_lt_one
    · exact Prod.Lex.left _ _ shorter

end

/--
Reads expressions up to the end of the lexemes, of which the first has an index. Each expression
comes with the position where it starts, all of them with the index after the last lexeme.
-/
def sequence (limit index : Nat) : List Lexeme → Except Malformed (Nat × List (Nat × Expr))
  | [] => .ok (index, [])
  | first :: rest =>
      match element limit 0 first rest with
      | .error fault => .error fault
      | .ok (expr, ⟨after, _shorter⟩) =>
          match sequence limit (index + ((first :: rest).length - after.length)) after with
          | .error fault => .error fault
          | .ok (stop, others) => .ok (stop, (first.start, expr) :: others)
  termination_by lexemes => lexemes.length
  decreasing_by exact _shorter

/-- The position after the last lexeme. -/
def endPosition (lexemes : List Lexeme) : Nat :=
  (lexemes.getLast?.map Lexeme.stop).getD 0

/--
Reads all lexemes from an index on as one expression, which comes after the index where reading
stops. Where there is more than one, the fault is at the second; where there is none, at the end.
-/
def single (limit : Nat) (lexemes : List Lexeme) (index : Nat) : Except Malformed (Nat × Expr) :=
  match sequence limit index (lexemes.drop index) with
  | .error fault => .error fault
  | .ok (stop, [(_, expr)]) => .ok (stop, expr)
  | .ok (_, []) => .error (.notSingle 0 (endPosition lexemes))
  | .ok (_, first :: second :: others) =>
      .error (.notSingle (first :: second :: others).length second.1)

/-- The expression that all lexemes from an index on make up. -/
def ofLexemes (limit : Nat) (lexemes : List Lexeme) (index : Nat) : Except Malformed Expr :=
  (single limit lexemes index).map Prod.snd

/-- Reads a whole text as one expression whose groups nest no deeper than a limit. -/
def read (limit : Nat) (text : String) : Except Malformed Expr :=
  match Lexeme.read text with
  | .error fault => .error fault
  | .ok lexemes => ofLexemes limit lexemes 0

end Expr

end PrefixArith
