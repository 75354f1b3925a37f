/-!
# Texts

What all readers of texts share: digits, white space, positions, and the remainder that a reader
leaves of its input.
-/

namespace PrefixArith

/-- A list that is shorter than another one, such as what a reader leaves of its input. -/
abbrev Remainder {α : Type} (whole : List α) : Type :=
  { rest : List α // rest.length < whole.length }

namespace Remainder

variable {α : Type} {whole : List α}

/-- What is left of a remainder is left of the whole. -/
def of (part : Remainder whole) (rest : Remainder part.val) : Remainder whole :=
  ⟨rest.val, Nat.lt_trans rest.property part.property⟩

/-- A list no longer than a remainder is a remainder. -/
def atMost (part : Remainder whole) (rest : List α) (shorter : rest.length ≤ part.val.length) :
    Remainder whole :=
  ⟨rest, Nat.lt_of_le_of_lt shorter part.property⟩

end Remainder

namespace Text

/-! ## Digits -/

/-- The value of a character as a digit, or as a letter counted on from nine. -/
def alphanumericValue? (character : Char) : Option Nat :=
  if '0' ≤ character ∧ character ≤ '9' then some (character.toNat - '0'.toNat)
  else if 'a' ≤ character ∧ character ≤ 'z' then some (character.toNat - 'a'.toNat + 10)
  else if 'A' ≤ character ∧ character ≤ 'Z' then some (character.toNat - 'A'.toNat + 10)
  else none

/-- The value of a digit of a base of up to 36, an ASCII digit or an ASCII letter in either case. -/
def digit? (base : Nat) (character : Char) : Option Nat :=
  (alphanumericValue? character).filter (· < base)

/-- The natural number with the given digits in a base. -/
def ofDigits (base : Nat) (digits : List Nat) : Nat :=
  digits.foldl (fun value digit => value * base + digit) 0

/-! ## White space -/

/-- White space of both classes: five controls, and the spaces and line ends of Unicode. -/
def isSpace (character : Char) : Bool :=
  let code := character.toNat
  (0x9 ≤ code && code ≤ 0xD) || code == 0x20 || code == 0xA0 || code == 0x1680 ||
    (0x2000 ≤ code && code ≤ 0x200A) || code == 0x2028 || code == 0x2029 || code == 0x202F ||
    code == 0x205F || code == 0x3000

/-- A character that separates tokens; the byte order mark is one. -/
def isSeparator (character : Char) : Bool :=
  isSpace character || character.toNat == 0xFEFF

/--
A character with the Unicode property of white space, of which a line without an expression may
consist; the control character U+0085 is one and the byte order mark is not.
-/
def isBlank (character : Char) : Bool :=
  isSpace character || character.toNat == 0x85

/-! ## Bytes -/

/-- A text that was decoded from UTF-8. -/
structure Decoded where
  characters : List Char
  /--
  The places of the foreign bytes, which are part of no character; each place is counted from the end
  of the text, and a question mark stands there.
  -/
  foreign : List Nat

/-- Decodes bytes in UTF-8. -/
def decode : List UInt8 → Decoded
  | [] => ⟨[], []⟩
  | first :: rest =>
      match ((first :: rest).take 4).toByteArray.utf8DecodeChar? 0 with
      | some character =>
          let after := decode (rest.drop (character.utf8Size - 1))
          ⟨character :: after.characters, after.foreign⟩
      | none =>
          let after := decode rest
          ⟨'?' :: after.characters, (after.characters.length + 1) :: after.foreign⟩
  termination_by bytes => bytes.length
  decreasing_by
    · exact Nat.lt_succ_of_le (List.drop_sublist _ rest).length_le
    · exact Nat.lt_succ_self _

/-! ## Positions -/

/-- The number of bytes of a text in UTF-8. -/
def size (text : List Char) : Nat :=
  text.foldr (fun character total => character.utf8Size + total) 0

@[simp]
theorem size_nil : size [] = 0 := rfl

@[simp]
theorem size_cons (character : Char) (text : List Char) :
    size (character :: text) = character.utf8Size + size text := rfl

@[simp]
theorem size_append (left right : List Char) : size (left ++ right) = size left + size right := by
  induction left with
  | nil => simp
  | cons character left ih => simp [ih, Nat.add_assoc]

/--
The column of a position, which counts characters where the position counts bytes of the UTF-8 form,
if a character or the end of the text is at the position.
-/
def column? : List Char → Nat → Option Nat
  | _, 0 => some 0
  | [], _ + 1 => none
  | first :: rest, position =>
      if position < first.utf8Size then none
      else (column? rest (position - first.utf8Size)).map (· + 1)

end Text

end PrefixArith
