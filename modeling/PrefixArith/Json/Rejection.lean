import PrefixArith.Json.Tree
import PrefixArith.Text.Quotation

/-!
# Rejected JSON

Why a text is refused where JSON of a certain shape is due: it is not JSON, or another kind of value
stands where the shape asks for one. A value of the wrong kind is refused as soon as its kind is
known, before what follows it is read.
-/

namespace PrefixArith

namespace Json

/-- A value of the wrong kind, as far as a message shows it. -/
inductive Found where
  | null
  | bool (value : Bool)
  | integer (value : Int)
  | real (value : Binary64)
  | string (content : List Char)
  | list
  | object

/-- The phrase for a value of the wrong kind. -/
def Found.describe : Found → String
  | null => "null"
  | bool value => "boolean `" ++ toString value ++ "`"
  | integer value => "integer `" ++ toString value ++ "`"
  | real value => "floating point `" ++ String.ofList (numberLayout.text value) ++ "`"
  | string content => "string " ++ String.ofList (Text.quote content)
  | list => "sequence"
  | object => "map"

/-- The line and the column at which a reader stands, both counted from one. -/
structure Place where
  line : Nat
  column : Nat

/-- The words about the place of a fault, which only some faults have. -/
def Place.phrase : Option Place → String
  | none => ""
  | some place => " at line " ++ toString place.line ++ " column " ++ toString place.column

/-- The reason for which a text is refused. -/
inductive Rejection where
  | malformed (fault : Fault)
  | unexpected (found : Found) (expected : String)
  | negativeCount (value : Int)
  | repeatedMember (key : String)
  | noNumbers

def Rejection.message : Rejection → String
  | malformed fault => fault.message
  | unexpected found expected =>
      "invalid type: " ++ found.describe ++ ", expected " ++ expected
  | negativeCount value =>
      "invalid value: integer `" ++ toString value ++ "`, expected usize"
  | repeatedMember key => "duplicate field `" ++ key ++ "`"
  | noNumbers => "data did not match any variant of untagged enum Value"

/-- Reads a value, of which the first character has been taken, as far as its kind. -/
def found {text : List Char} (foreign : List Nat) (first : Char) (rest : Remainder text) :
    Except Fault Found :=
  if first = 'n' then (constant ['u', 'l', 'l'] rest).map fun _ => .null
  else if first = 't' then (constant ['r', 'u', 'e'] rest).map fun _ => .bool true
  else if first = 'f' then (constant ['a', 'l', 's', 'e'] rest).map fun _ => .bool false
  else if first = '"' then (quoted foreign rest).map fun content => .string content.1
  else if startsNumber first then
    match numeral first rest with
    | .error fault => .error fault
    | .ok (.integer value, _) => .ok (.integer value)
    | .ok (.real value, _) => .ok (.real value)
  else if first = '[' then .ok .list
  else if first = '\x7b' then .ok .object
  else .error .noValue

/-- The reason to refuse a value where another kind of value is due. -/
def refuse {text : List Char} (foreign : List Nat) (expected : String) (first : Char)
    (rest : Remainder text) : Rejection :=
  match found foreign first rest with
  | .error fault => .malformed fault
  | .ok kind => .unexpected kind expected

/-- Refuses what stands after the end of a value, blanks apart. -/
def finish {α : Type} (result : α) (after : List Char) : Except Rejection α :=
  if atEnd after then .ok result else .error (.malformed .trailingText)

end Json

end PrefixArith
