/-!
# Malformed expressions

Why a text is not an expression, and where. Positions count bytes of the text.
-/

namespace PrefixArith

/-- The fault for which a text is not an expression. -/
inductive Malformed where
  /-- The text holds no token. -/
  | noToken
  /-- At a position stands neither a separator nor the start of a token. -/
  | unreadable (position : Nat)
  /-- An atom is neither a numeral nor the symbol of an operator. -/
  | unknownAtom (text : String) (position : Nat)
  /-- A parenthesis closes nothing. -/
  | unmatchedClosing (position : Nat)
  /-- The text ends inside the group that opens at a position. -/
  | unclosed (position : Nat)
  /-- The text holds another number of expressions than one. -/
  | notSingle (count position : Nat)
  /-- A group lies deeper than the limit allows. -/
  | tooDeep (limit position : Nat)
  deriving DecidableEq

namespace Malformed

/-- The kinds of faults that a report tells apart. -/
inductive Kind where
  | invalidInput
  | unknownToken
  | badStructure
  | nestingTooDeep
  deriving DecidableEq

/-- The kind of a fault. -/
def kind : Malformed → Kind
  | noToken => .invalidInput
  | unknownAtom _ _ => .unknownToken
  | tooDeep _ _ => .nestingTooDeep
  | _ => .badStructure

/-- The position of the fault; a text without tokens has none. -/
def position? : Malformed → Option Nat
  | noToken => none
  | unreadable position => some position
  | unknownAtom _ position => some position
  | unmatchedClosing position => some position
  | unclosed position => some position
  | notSingle _ position => some position
  | tooDeep _ position => some position

/-- The text of a message about the structure of an expression. -/
def structureMessage (fault : String) (position : Nat) : String :=
  "Syntax error: " ++ fault ++ " at position " ++ toString position

def message : Malformed → String
  | noToken => "Non-empty string expected"
  | unreadable position => structureMessage "no token can be read" position
  | unknownAtom text _ => "Unknown token: " ++ text
  | unmatchedClosing position => structureMessage "unexpected `)` without matching `(`" position
  | unclosed position => structureMessage "unclosed `(`" position
  | notSingle count position =>
      structureMessage ("expected a single top-level expression, found " ++ toString count) position
  | tooDeep limit position =>
      structureMessage ("nesting deeper than " ++ toString limit ++ " levels") position

/-- What is told of a fault. -/
structure Notice where
  kind : Kind
  message : String
  position? : Option Nat
  deriving DecidableEq

def notice (fault : Malformed) : Notice :=
  ⟨fault.kind, fault.message, fault.position?⟩

end Malformed

end PrefixArith
