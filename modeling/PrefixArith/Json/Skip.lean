import PrefixArith.Json.Lexical
import PrefixArith.Json.Number
import PrefixArith.Json.Quoted
import PrefixArith.Json.Tree

/-!
# Values passed over

A value that is of no interest has to be well formed, but its numbers may have any size, its strings
may hold lone surrogates and its lists and objects may nest to any depth.
-/

namespace PrefixArith

namespace Json

/-- Passes over a string, of which the opening quote has been taken. -/
def skipQuoted {text : List Char} (rest : Remainder text) : Except Fault (Remainder text) :=
  match passed : Quoted.skip rest.val with
  | .error fault => .error fault
  | .ok after => .ok (rest.atMost after (Nat.le_of_lt (Quoted.skip_length_lt passed)))

/-- Passes over a number, of which the first character has been taken. -/
def skipNumeral {text : List Char} (first : Char) (rest : Remainder text) :
    Except Fault (Remainder text) :=
  match passed : Number.skip (first :: rest.val) with
  | .error fault => .error fault
  | .ok after => .ok (rest.atMost after (Nat.le_of_lt_succ (Number.skip_length_lt passed)))

/-- Passes over a key and the colon after it. -/
def skipKey (text : List Char) : Except Fault (Remainder text) :=
  match next? text with
  | none => .error .endInObject
  | some (first, rest) =>
      if first = '"' then
        match skipQuoted rest with
        | .error fault => .error fault
        | .ok after => (colon after.val).map after.of
      else .error .keyNotString

mutual

/-- Passes over a value. -/
def skip (text : List Char) : Except Fault (Remainder text) :=
  match next? text with
  | none => .error .endInValue
  | some (first, rest) =>
      if first = 'n' then constant ['u', 'l', 'l'] rest
      else if first = 't' then constant ['r', 'u', 'e'] rest
      else if first = 'f' then constant ['a', 'l', 's', 'e'] rest
      else if first = '"' then skipQuoted rest
      else if startsNumber first then skipNumeral first rest
      else if first = '[' then (skipItems true rest.val).map rest.of
      else if first = '\x7b' then (skipMembers true rest.val).map rest.of
      else .error .noValue
  termination_by (text.length, 0)
  decreasing_by
    · exact Prod.Lex.left _ _ rest.property
    · exact Prod.Lex.left _ _ rest.property

/-- Passes over the items of a list, from the first or from the comma before the next. -/
def skipItems (isFirst : Bool) (text : List Char) : Except Fault (Remainder text) :=
  match next? text with
  | none => .error .endInList
  | some (first, rest) =>
      if first = ']' then .ok rest
      else if isFirst then
        match skip text with
        | .error fault => .error fault
        | .ok after => (skipItems false after.val).map after.of
      else if first = ',' then
        match skip rest.val with
        | .error fault => .error fault
        | .ok after => (skipItems false after.val).map fun found => rest.of (after.of found)
      else .error .noListComma
  termination_by (text.length, 1)
  decreasing_by
    · exact Prod.Lex.right _ Nat.zero_lt_one
    · exact Prod.Lex.left _ _ after.property
    · exact Prod.Lex.left _ _ rest.property
    · exact Prod.Lex.left _ _ (Nat.lt_trans after.property rest.property)

/-- Passes over the members of an object, from the first or from the comma before the next. -/
def skipMembers (isFirst : Bool) (text : List Char) : Except Fault (Remainder text) :=
  match next? text with
  | none => .error .endInObject
  | some (first, rest) =>
      if first = '\x7d' then .ok rest
      else if isFirst then
        match skipKey text with
        | .error fault => .error fault
        | .ok afterKey =>
            match skip afterKey.val with
            | .error fault => .error fault
            | .ok after =>
                (skipMembers false after.val).map fun found => afterKey.of (after.of found)
      else if first = ',' then
        match skipKey rest.val with
        | .error fault => .error fault
        | .ok afterKey =>
            match skip afterKey.val with
            | .error fault => .error fault
            | .ok after =>
                (skipMembers false after.val).map fun found =>
                  rest.of (afterKey.of (after.of found))
      else .error .noObjectComma
  termination_by (text.length, 1)
  decreasing_by
    · exact Prod.Lex.left _ _ afterKey.property
    · exact Prod.Lex.left _ _ (Nat.lt_trans after.property afterKey.property)
    · exact Prod.Lex.left _ _ (Nat.lt_trans afterKey.property rest.property)
    · exact Prod.Lex.left _ _
        (Nat.lt_trans after.property (Nat.lt_trans afterKey.property rest.property))

end

end Json

end PrefixArith
