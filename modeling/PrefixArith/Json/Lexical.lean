import PrefixArith.Json.Fault
import PrefixArith.Text.Basic

/-!
# Characters and words of JSON

The pieces that all JSON readers share: the next character that is not blank, the words for the
constants, and the colon between a key and its value.
-/

namespace PrefixArith

namespace Json

/-- White space between the tokens of JSON. -/
def isBlank (character : Char) : Bool :=
  character == ' ' || character == '\t' || character == '\n' || character == '\r'

/-- The first character that is not blank, and the text after it. -/
def next? : (text : List Char) → Option (Char × Remainder text)
  | [] => none
  | first :: rest =>
      if isBlank first then
        (next? rest).map fun found =>
          (found.1, ⟨found.2.val, Nat.lt_succ_of_lt found.2.property⟩)
      else some (first, ⟨rest, Nat.lt_succ_self _⟩)

/-- Takes a word from the front of a text. -/
def word : List Char → List Char → Except Fault (List Char)
  | [], text => .ok text
  | _ :: _, [] => .error .endInValue
  | expected :: letters, first :: rest =>
      if first = expected then word letters rest else .error .badWord

theorem word_length_le {letters text after : List Char} (taken : word letters text = .ok after) :
    after.length ≤ text.length := by
  induction letters generalizing text with
  | nil =>
      cases taken
      exact Nat.le_refl _
  | cons expected letters ih =>
      cases text with
      | nil => cases taken
      | cons first rest =>
          unfold word at taken
          split at taken
          · exact Nat.le_succ_of_le (ih taken)
          · cases taken

/-- Takes the letters of a constant after the first one. -/
def constant {text : List Char} (letters : List Char) (rest : Remainder text) :
    Except Fault (Remainder text) :=
  match taken : word letters rest.val with
  | .error fault => .error fault
  | .ok after => .ok (rest.atMost after (word_length_le taken))

/-- Takes the colon after a key. -/
def colon (text : List Char) : Except Fault (Remainder text) :=
  match next? text with
  | none => .error .endInObject
  | some (first, rest) => if first = ':' then .ok rest else .error .noColon

end Json

end PrefixArith
