import PrefixArith.Text.Basic

/-!
# Tokens

An expression is written with parentheses, which are tokens by themselves, and atoms. An atom is a
longest run of characters that are neither separators nor parentheses.
-/

namespace PrefixArith

/-- A token of an expression. -/
inductive Token where
  | opening
  | closing
  | atom (text : String)
  deriving DecidableEq

namespace Token

/-- The text that a token stands for. -/
def text : Token → String
  | opening => "("
  | closing => ")"
  | atom text => text

def isParenthesis (character : Char) : Bool :=
  character == '(' || character == ')'

/-- A character that can stand in an atom. -/
def isAtomCharacter (character : Char) : Bool :=
  !Text.isSeparator character && !isParenthesis character

/-- The token that starts with a character other than a separator, and the text after it. -/
def first (start : Char) (rest : List Char) : Token × List Char :=
  if start = '(' then (opening, rest)
  else if start = ')' then (closing, rest)
  else
    (atom (String.ofList (start :: rest.takeWhile isAtomCharacter)),
      rest.dropWhile isAtomCharacter)

theorem first_length_le (start : Char) (rest : List Char) :
    (first start rest).2.length ≤ rest.length := by
  unfold first
  split
  · exact Nat.le_refl _
  · split
    · exact Nat.le_refl _
    · exact (List.dropWhile_suffix _).length_le

/-- A parenthesis at the front of a text. -/
def parenthesis? : List Char → Option (Token × List Char)
  | [] => none
  | start :: rest => if isParenthesis start then some (first start rest) else none

/-- An atom at the front of a text. -/
def atom? : List Char → Option (Token × List Char)
  | [] => none
  | start :: rest => if isAtomCharacter start then some (first start rest) else none

/-- The token at the front of a text: a parenthesis or else an atom. -/
def front? (text : List Char) : Option (Token × List Char) :=
  match parenthesis? text with
  | some found => some found
  | none => atom? text

theorem front?_cons (start : Char) (rest : List Char) :
    front? (start :: rest) =
      if isParenthesis start || isAtomCharacter start then some (first start rest) else none := by
  by_cases parenthesis : isParenthesis start <;> simp [front?, parenthesis?, atom?, parenthesis]

theorem length_lt_of_front? {text rest : List Char} {token : Token}
    (found : front? text = some (token, rest)) : rest.length < text.length := by
  cases text with
  | nil => cases found
  | cons start tail =>
      rw [front?_cons] at found
      split at found
      · have shorter := first_length_le start tail
        rw [Option.some.inj found] at shorter
        exact Nat.lt_succ_of_le shorter
      · cases found

end Token

end PrefixArith
