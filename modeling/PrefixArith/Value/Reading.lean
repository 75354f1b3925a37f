import PrefixArith.Json.Rejection
import PrefixArith.Value.Basic

/-!
# Reading values

A value is read from JSON that holds nothing but numbers in lists.
-/

namespace PrefixArith

namespace Value

mutual

/-- The value of a JSON tree of numbers and lists. -/
def ofJson? : Json → Option Value
  | .number value => some (number value.toBinary64)
  | .list items => (ofJsons? items).map list
  | _ => none

/-- The values of several JSON trees of numbers and lists. -/
def ofJsons? : List Json → Option (List Value)
  | [] => some []
  | first :: rest =>
      match ofJson? first with
      | none => none
      | some value => (ofJsons? rest).map (value :: ·)

end

/-- Reads a whole JSON text as a value. -/
def read (text : List Char) : Except Json.Rejection Value :=
  match Json.value Json.maxNesting text with
  | .error fault => .error (.malformed fault)
  | .ok (tree, after) =>
      match ofJson? tree with
      | none => .error .noNumbers
      | some value => Json.finish value after.val

end Value

end PrefixArith
