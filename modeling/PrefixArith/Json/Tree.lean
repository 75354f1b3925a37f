import PrefixArith.Json.Lexical
import PrefixArith.Json.Number
import PrefixArith.Json.Quoted

/-!
# Trees of JSON

A JSON text is read into a tree with its numbers valued and its strings resolved. Lists and objects
nest no deeper than a limit.
-/

namespace PrefixArith

/-- A JSON value. -/
inductive Json where
  | null
  | bool (value : Bool)
  | number (value : Json.Number)
  | string (content : List Char)
  | list (items : List Json)
  | object (members : List (List Char × Json))

namespace Json

/-- The number of lists and objects that may lie around one another. -/
def maxNesting : Nat := 127

/--
Reads a string, of which the opening quote has been taken. It must not hold a foreign byte; `foreign`
gives the places of those, counted from the end of the text.
-/
def quoted {text : List Char} (foreign : List Nat) (rest : Remainder text) :
    Except Fault (List Char × Remainder text) :=
  match found : Quoted.read rest.val with
  | .error fault => .error fault
  | .ok (content, after) =>
      if foreign.any fun place => after.length < place && place ≤ rest.val.length then
        .error .notUnicode
      else .ok (content, rest.atMost after (Nat.le_of_lt (Quoted.read_length_lt found)))

/-- Reads a number, of which the first character has been taken. -/
def numeral {text : List Char} (first : Char) (rest : Remainder text) :
    Except Fault (Number × Remainder text) :=
  match taken : Number.read (first :: rest.val) with
  | .error fault => .error fault
  | .ok (found, after) =>
      .ok (found, rest.atMost after (Nat.le_of_lt_succ (Number.read_length_lt taken)))

/-- Whether a number starts with a character. -/
def startsNumber (character : Char) : Bool :=
  character == '-' || character.isDigit

/--
Takes what stands before the key of the next member of an object, and reads the key. No key is
found where the object closes.
-/
def nextKey (foreign : List Nat) (isFirst : Bool) (text : List Char) :
    Except Fault (Option (List Char) × Remainder text) :=
  match next? text with
  | none => .error .endInObject
  | some (first, rest) =>
      if first = '\x7d' then .ok (none, rest)
      else if isFirst then
        if first = '"' then (quoted foreign rest).map fun found => (some found.1, found.2)
        else .error .keyNotString
      else if first = ',' then
        match next? rest.val with
        | none => .error .endInValue
        | some (second, after) =>
            if second = '"' then
              (quoted foreign after).map fun found => (some found.1, rest.of found.2)
            else if second = '\x7d' then .error .trailingComma
            else .error .keyNotString
      else .error .noObjectComma

mutual

/-- Reads a value around which `room` more lists and objects may lie inside. -/
def value (room : Nat) (text : List Char) : Except Fault (Json × Remainder text) :=
  match next? text with
  | none => .error .endInValue
  | some (first, rest) =>
      if first = 'n' then (constant ['u', 'l', 'l'] rest).map fun after => (.null, after)
      else if first = 't' then (constant ['r', 'u', 'e'] rest).map fun after => (.bool true, after)
      else if first = 'f' then
        (constant ['a', 'l', 's', 'e'] rest).map fun after => (.bool false, after)
      else if first = '"' then (quoted [] rest).map fun found => (.string found.1, found.2)
      else if startsNumber first then
        (numeral first rest).map fun found => (.number found.1, found.2)
      else if first = '[' then
        if room = 0 then .error .tooDeep
        else (items (room - 1) true rest.val).map fun found => (.list found.1, rest.of found.2)
      else if first = '\x7b' then
        if room = 0 then .error .tooDeep
        else (members (room - 1) true rest.val).map fun found => (.object found.1, rest.of found.2)
      else .error .noValue
  termination_by (text.length, 0)
  decreasing_by
    · exact Prod.Lex.left _ _ rest.property
    · exact Prod.Lex.left _ _ rest.property

/-- Reads the items of a list, from the first or from the comma before the next. -/
def items (room : Nat) (isFirst : Bool) (text : List Char) :
    Except Fault (List Json × Remainder text) :=
  match next? text with
  | none => .error .endInList
  | some (first, rest) =>
      if first = ']' then .ok ([], rest)
      else if isFirst then
        match value room text with
        | .error fault => .error fault
        | .ok (item, after) =>
            (items room false after.val).map fun found => (item :: found.1, after.of found.2)
      else if first = ',' then
        match next? rest.val with
        | none => .error .endInValue
        | some (second, _) =>
            if second = ']' then .error .trailingComma
            else
              match value room rest.val with
              | .error fault => .error fault
              | .ok (item, after) =>
                  (items room false after.val).map fun found =>
                    (item :: found.1, rest.of (after.of found.2))
      else .error .noListComma
  termination_by (text.length, 1)
  decreasing_by
    · exact Prod.Lex.right _ Nat.zero_lt_one
    · exact Prod.Lex.left _ _ after.property
    · exact Prod.Lex.left _ _ rest.property
    · exact Prod.Lex.left _ _ (Nat.lt_trans after.property rest.property)

/-- Reads the members of an object, from the first or from the comma before the next. -/
def members (room : Nat) (isFirst : Bool) (text : List Char) :
    Except Fault (List (List Char × Json) × Remainder text) :=
  match nextKey [] isFirst text with
  | .error fault => .error fault
  | .ok (none, rest) => .ok ([], rest)
  | .ok (some key, rest) =>
      match colon rest.val with
      | .error fault => .error fault
      | .ok afterColon =>
          match value room afterColon.val with
          | .error fault => .error fault
          | .ok (member, after) =>
              (members room false after.val).map fun found =>
                ((key, member) :: found.1, rest.of (afterColon.of (after.of found.2)))
  termination_by (text.length, 1)
  decreasing_by
    · exact Prod.Lex.left _ _ (Nat.lt_trans afterColon.property rest.property)
    · exact Prod.Lex.left _ _
        (Nat.lt_trans after.property (Nat.lt_trans afterColon.property rest.property))

end

/-- Whether only blanks are left. -/
def atEnd (text : List Char) : Bool :=
  (next? text).isNone

end Json

end PrefixArith
