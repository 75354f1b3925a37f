import PrefixArith.Expr.Malformed
import PrefixArith.Text.Basic
import PrefixArith.Token.Basic

/-!
# Lexemes

A lexeme is a token with the positions between which it stands in a text. A text is read from front
to back into the lexemes that separators and parentheses divide it into; whatever it holds, every
character of it is a separator or belongs to one lexeme.
-/

namespace PrefixArith

/-- A token with the position of its first byte and the position after its last. -/
structure Lexeme where
  token : Token
  start : Nat
  stop : Nat
  deriving DecidableEq

namespace Lexeme

/-- Reads the lexemes of a text whose first character is at a position. -/
def readFrom (position : Nat) (text : List Char) : Except Malformed (List Lexeme) :=
  match text with
  | [] => .ok []
  | start :: rest =>
      if Text.isSeparator start then readFrom (position + start.utf8Size) rest
      else
        match _found : Token.front? (start :: rest) with
        | none => .error (.unreadable position)
        | some (token, after) =>
            let stop := position + Text.size token.text.toList
            match readFrom stop after with
            | .error fault => .error fault
            | .ok others => .ok (⟨token, position, stop⟩ :: others)
  termination_by text.length
  decreasing_by
    · simp
    · exact Token.length_lt_of_front? _found

/-- Reads the lexemes of a text, of which there must be one. -/
def read (text : String) : Except Malformed (List Lexeme) :=
  match readFrom 0 text.toList with
  | .error fault => .error fault
  | .ok [] => .error .noToken
  | .ok lexemes => .ok lexemes

end Lexeme

end PrefixArith
