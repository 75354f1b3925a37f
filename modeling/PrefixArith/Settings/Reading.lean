import PrefixArith.Json.Rejection
import PrefixArith.Json.Skip

/-!
# Settings

What can be set of a calculator: how deep the groups of an expression may nest. Settings are read from
a JSON object, of which only the member with the nesting limit counts and any other is passed over,
or from a list that holds at most the limit. A limit that is missing has its standard value. Strings
that are read must not hold foreign bytes, whose places the readers are given; strings that are
passed over may.
-/

namespace PrefixArith

/-- The settings of a calculator. -/
structure Settings where
  maxDepth : Nat
  deriving DecidableEq

namespace Settings

/-- The settings that hold where none are given. -/
def standard : Settings := ⟨256⟩

/-- The key of the nesting limit in JSON. -/
def maxDepthKey : String := "max_depth"

/-- The JSON text of settings, an object of one member. -/
def json (settings : Settings) : String :=
  "\x7b\"" ++ maxDepthKey ++ "\":" ++ toString settings.maxDepth ++ "\x7d"

open Json (Rejection next?)

/-- Reads a natural number of 64 bits. -/
def count (foreign : List Nat) (text : List Char) : Except Rejection (Nat × Remainder text) :=
  match next? text with
  | none => .error (.malformed .endInValue)
  | some (first, rest) =>
      if Json.startsNumber first then
        match Json.numeral first rest with
        | .error fault => .error (.malformed fault)
        | .ok (.real value, _) => .error (.unexpected (.real value) "usize")
        | .ok (.integer value, after) =>
            if value < 0 then .error (.negativeCount value) else .ok (value.toNat, after)
      else .error (Json.refuse foreign "usize" first rest)

/-- Takes the end of a list after its only item. -/
def closeList (text : List Char) : Except Rejection (List Char) :=
  match next? text with
  | none => .error (.malformed .endInList)
  | some (first, rest) =>
      if first = ']' then .ok rest.val
      else if first = ',' ∧ (next? rest.val).map Prod.fst = some ']' then
        .error (.malformed .trailingComma)
      else .error (.malformed .trailingText)

/-- Reads a list of at most one count, after its opening bracket. -/
def listLimit (foreign : List Nat) (text : List Char) : Except Rejection (Option Nat × List Char) :=
  match next? text with
  | none => .error (.malformed .endInList)
  | some (first, rest) =>
      if first = ']' then .ok (none, rest.val)
      else
        match count foreign text with
        | .error rejection => .error rejection
        | .ok (limit, after) => (closeList after.val).map fun rest => (some limit, rest)

/--
Reads the members of an object, from the first or from the comma before the next, given the limit
if it has been read.
-/
def memberLimit (foreign : List Nat) (limit : Option Nat) (isFirst : Bool) (text : List Char) :
    Except Rejection (Option Nat × List Char) :=
  match Json.nextKey foreign isFirst text with
  | .error fault => .error (.malformed fault)
  | .ok (none, rest) => .ok (limit, rest.val)
  | .ok (some key, rest) =>
      if String.ofList key = maxDepthKey then
        if limit.isSome then .error (.repeatedMember maxDepthKey)
        else
          match Json.colon rest.val with
          | .error fault => .error (.malformed fault)
          | .ok afterColon =>
              match count foreign afterColon.val with
              | .error rejection => .error rejection
              | .ok (value, after) => memberLimit foreign (some value) false after.val
      else
        match Json.colon rest.val with
        | .error fault => .error (.malformed fault)
        | .ok afterColon =>
            match Json.skip afterColon.val with
            | .error fault => .error (.malformed fault)
            | .ok after => memberLimit foreign limit false after.val
  termination_by text.length
  decreasing_by
    · exact Nat.lt_trans after.property (Nat.lt_trans afterColon.property rest.property)
    · exact Nat.lt_trans after.property (Nat.lt_trans afterColon.property rest.property)

/-- Reads the limit from a list or an object. -/
def limit (foreign : List Nat) (text : List Char) : Except Rejection (Option Nat × List Char) :=
  match next? text with
  | none => .error (.malformed .endInValue)
  | some (first, rest) =>
      if first = '[' then listLimit foreign rest.val
      else if first = '\x7b' then memberLimit foreign none true rest.val
      else .error (Json.refuse foreign "struct EvalConfig" first rest)

/-- Reads a whole JSON text as settings. -/
def read (foreign : List Nat) (text : List Char) : Except Rejection Settings :=
  match limit foreign text with
  | .error rejection => .error rejection
  | .ok (limit, after) => Json.finish ⟨limit.getD standard.maxDepth⟩ after

end Settings

end PrefixArith
