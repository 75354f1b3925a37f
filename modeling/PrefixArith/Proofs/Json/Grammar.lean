import PrefixArith.Json.Skip
import PrefixArith.Proofs.Json.Tree
import PrefixArith.Proofs.Numeral.Literal

/-!
# The grammar of JSON

A JSON value is null, a truth value, a string, a number, or a list or an object of others, with any
blanks between its parts. Strings and numbers are read and passed over exactly up to their ends, and
what is read of them does not depend on what stands behind.
-/

namespace PrefixArith

namespace Json

/-- Blanks, or nothing. -/
def IsGap (text : List Char) : Prop :=
  ∀ character ∈ text, isBlank character = true

theorem isGap_nil : IsGap [] :=
  nofun

theorem IsGap.append {left right : List Char} (isLeft : IsGap left) (isRight : IsGap right) :
    IsGap (left ++ right) := fun character member =>
  (List.mem_append.mp member).elim (isLeft character) (isRight character)

/-! ## Strings -/

namespace Quoted

/-- Four hexadecimal digits and the number that they stand for. -/
inductive CodeUnit : List Char → Nat → Prop where
  | of {first second third fourth : Char} {a b c d : Nat} (isFirst : Text.IsDigit 16 first a)
      (isSecond : Text.IsDigit 16 second b) (isThird : Text.IsDigit 16 third c)
      (isFourth : Text.IsDigit 16 fourth d) :
      CodeUnit [first, second, third, fourth] (Text.ofDigits 16 [a, b, c, d])

/-- The marks that may follow a backslash, and the characters that are meant. -/
inductive Escape : Char → Char → Prop where
  | quote : Escape '"' '"'
  | backslash : Escape '\\' '\\'
  | slash : Escape '/' '/'
  | backspace : Escape 'b' '\x08'
  | formFeed : Escape 'f' '\x0c'
  | lineFeed : Escape 'n' '\n'
  | carriageReturn : Escape 'r' '\r'
  | tab : Escape 't' '\t'

/-- Whether a character stands for itself in a string. -/
def isPlain (character : Char) : Bool :=
  character != '"' && character != '\\' && 0x20 ≤ character.toNat

theorem isPlain_iff {character : Char} :
    isPlain character = true ↔
      character ≠ '"' ∧ character ≠ '\\' ∧ ¬ character.toNat < 0x20 := by
  simp [isPlain, and_assoc]

/--
A character as it is written in a string, and the character that is meant. One beyond 16 bits is
written in two halves of 10 bits each.
-/
inductive Symbol : List Char → Char → Prop where
  | plain {character : Char} (plain : isPlain character = true) : Symbol [character] character
  | escape {mark character : Char} (escape : Escape mark character) : Symbol ['\\', mark] character
  | unit {digits : List Char} {character : Char} (spelled : CodeUnit digits character.toNat) :
      Symbol ('\\' :: 'u' :: digits) character
  | pair {high low : List Char} {character : Char} (beyond : 0x10000 ≤ character.toNat)
      (leading : CodeUnit high (0xD800 + (character.toNat - 0x10000) / 0x400))
      (trailing : CodeUnit low (0xDC00 + (character.toNat - 0x10000) % 0x400)) :
      Symbol ('\\' :: 'u' :: (high ++ '\\' :: 'u' :: low)) character

/-- What stands between the quotes of a string, and the characters that are meant. -/
inductive Spells : List Char → List Char → Prop where
  | nil : Spells [] []
  | cons {piece written content : List Char} {character : Char} (first : Symbol piece character)
      (rest : Spells written content) : Spells (piece ++ written) (character :: content)

/-- What may stand between the quotes of a string, where surrogates need not come in pairs. -/
inductive IsWritten : List Char → Prop where
  | nil : IsWritten []
  | plain {character : Char} {written : List Char} (plain : isPlain character = true)
      (rest : IsWritten written) : IsWritten (character :: written)
  | escape {mark character : Char} {written : List Char} (escape : Escape mark character)
      (rest : IsWritten written) : IsWritten ('\\' :: mark :: written)
  | unit {digits written : List Char} {code : Nat} (spelled : CodeUnit digits code)
      (rest : IsWritten written) : IsWritten ('\\' :: 'u' :: (digits ++ written))

theorem CodeUnit.unit_append {digits : List Char} {code : Nat} (spelled : CodeUnit digits code)
    (rest : List Char) : unit (digits ++ rest) = .ok (code, rest) := by
  have value {digit : Char} {value : Nat} (isDigit : Text.IsDigit 16 digit value) :
      hexDigit? digit = some value := (Text.digit?_eq_some_iff (by decide)).mpr isDigit
  cases spelled with
  | of isFirst isSecond isThird isFourth =>
      simp [unit, value isFirst, value isSecond, value isThird, value isFourth, Text.ofDigits]

theorem Escape.simpleEscape?_eq {mark character : Char} (escape : Escape mark character) :
    simpleEscape? mark = some character := by
  cases escape <;> rfl

/-- No simple escape has the mark of the escapes by number. -/
theorem Escape.mark_ne {mark character : Char} (escape : Escape mark character) : mark ≠ 'u' := by
  cases escape <;> decide

theorem Escape.escape_eq {mark character : Char} (isEscape : Escape mark character)
    (rest : List Char) : escape (mark :: rest) = .ok (character, rest) := by
  rw [escape, if_neg isEscape.mark_ne, isEscape.simpleEscape?_eq]

theorem escape_unit {digits : List Char} {code : Nat} (spelled : CodeUnit digits code)
    (rest : List Char) :
    escape ('u' :: (digits ++ rest)) =
      if isTrailingSurrogate code then .error .loneSurrogate
      else if isLeadingSurrogate code then pair code rest
      else .ok (Char.ofNat code, rest) := by
  rw [escape, if_pos rfl, spelled.unit_append]

theorem pair_unit {digits : List Char} {trailing : Nat} (spelled : CodeUnit digits trailing)
    (leading : Nat) (rest : List Char) :
    pair leading ('\\' :: 'u' :: (digits ++ rest)) =
      if isTrailingSurrogate trailing then
        .ok (Char.ofNat ((leading - 0xD800) * 0x400 + (trailing - 0xDC00) + 0x10000), rest)
      else .error .loneSurrogate := by
  rw [pair, spelled.unit_append]

/-- Only an escape by number is the second half of a pair. -/
theorem pair_of_ne {first : Char} (other : first ≠ '\\') (leading : Nat) (rest : List Char) :
    pair leading (first :: rest) = .error .cutSurrogatePair := by
  unfold pair
  split <;> simp_all

theorem pair_of_mark_ne {mark : Char} (other : mark ≠ 'u') (leading : Nat) (rest : List Char) :
    pair leading ('\\' :: mark :: rest) = .error .cutSurrogatePair := by
  unfold pair
  split <;> simp_all

/-- Reads the rest of a string behind a character that has been read. -/
def resume (result : Except Fault (Char × List Char)) : Except Fault (List Char × List Char) :=
  match result with
  | .error fault => .error fault
  | .ok (character, after) => (read after).map fun found => (character :: found.1, found.2)

theorem read_quote (rest : List Char) : read ('"' :: rest) = .ok ([], rest) := by
  rw [read, if_pos rfl]

theorem read_backslash (rest : List Char) : read ('\\' :: rest) = resume (escape rest) := by
  rw [read, if_neg (by decide), if_pos rfl]
  split
  · next failed => rw [failed, resume]
  · next found => rw [found, resume]

theorem read_plain {character : Char} (plain : isPlain character = true) (rest : List Char) :
    read (character :: rest) = resume (.ok (character, rest)) := by
  obtain ⟨noQuote, noBackslash, printable⟩ := isPlain_iff.mp plain
  rw [read, if_neg noQuote, if_neg noBackslash, if_neg printable, resume]

theorem read_unit {digits : List Char} {code : Nat} (spelled : CodeUnit digits code)
    (notTrailing : isTrailingSurrogate code = false)
    (notLeading : isLeadingSurrogate code = false) (rest : List Char) :
    read ('\\' :: 'u' :: digits ++ rest) = resume (.ok (Char.ofNat code, rest)) := by
  rw [List.cons_append, List.cons_append, read_backslash, escape_unit spelled, notTrailing,
    notLeading]
  rfl

/-- No character is a surrogate. -/
theorem not_surrogate (character : Char) :
    isTrailingSurrogate character.toNat = false ∧ isLeadingSurrogate character.toNat = false := by
  have valid : character.toNat < 0xD800 ∨ 0xDFFF < character.toNat ∧ character.toNat < 0x110000 :=
    character.valid
  simp only [isTrailingSurrogate, isLeadingSurrogate, Bool.and_eq_false_iff,
    decide_eq_false_iff_not]
  omega

/-- The halves of a character beyond 16 bits are a leading and a trailing surrogate. -/
theorem halves_spec {code : Nat} (beyond : 0x10000 ≤ code) (below : code < 0x110000) :
    isTrailingSurrogate (0xD800 + (code - 0x10000) / 0x400) = false ∧
      isLeadingSurrogate (0xD800 + (code - 0x10000) / 0x400) = true ∧
      isTrailingSurrogate (0xDC00 + (code - 0x10000) % 0x400) = true := by
  simp only [isTrailingSurrogate, isLeadingSurrogate, Bool.and_eq_false_iff, Bool.and_eq_true,
    decide_eq_false_iff_not, decide_eq_true_eq]
  omega

/-- A character is read as the one that is meant, and then the others. -/
theorem Symbol.read_append {piece : List Char} {character : Char} (symbol : Symbol piece character)
    (rest : List Char) : read (piece ++ rest) = resume (.ok (character, rest)) := by
  cases symbol with
  | plain plain => exact read_plain plain rest
  | @escape mark _ isEscape =>
      exact (read_backslash (mark :: rest)).trans (by rw [isEscape.escape_eq])
  | unit spelled =>
      obtain ⟨notTrailing, notLeading⟩ := not_surrogate character
      rw [read_unit spelled notTrailing notLeading, Char.ofNat_toNat]
  | @pair high low _ beyond leading trailing =>
      have below : character.toNat < 0x110000 := by
        have valid : character.toNat < 0xD800 ∨
            0xDFFF < character.toNat ∧ character.toNat < 0x110000 := character.valid
        omega
      obtain ⟨notTrailing, isLeading, isTrailing⟩ := halves_spec beyond below
      have split : '\\' :: 'u' :: (high ++ '\\' :: 'u' :: low) ++ rest =
          '\\' :: 'u' :: (high ++ '\\' :: 'u' :: (low ++ rest)) := by
        simp
      have whole : (0xD800 + (character.toNat - 0x10000) / 0x400 - 0xD800) * 0x400 +
          (0xDC00 + (character.toNat - 0x10000) % 0x400 - 0xDC00) + 0x10000 = character.toNat := by
        omega
      rw [split, read_backslash, escape_unit leading, notTrailing, isLeading,
        if_neg Bool.false_ne_true, if_pos rfl, pair_unit trailing, if_pos isTrailing, whole,
        Char.ofNat_toNat]

/-- A string is read up to its closing quote as the characters that are meant. -/
theorem Spells.read_append {written content : List Char} (spells : Spells written content)
    (rest : List Char) : read (written ++ '"' :: rest) = .ok (content, rest) := by
  induction spells with
  | nil => exact read_quote rest
  | cons first _ ih => rw [List.append_assoc, first.read_append, resume, ih, Except.map]

theorem skip_backslash {rest after : List Char} (passed : skipEscape rest = .ok after) :
    skip ('\\' :: rest) = skip after := by
  rw [skip, if_neg (by decide), if_pos rfl]
  split
  · next failed =>
      rw [passed] at failed
      cases failed
  · next found =>
      rw [passed] at found
      cases found
      rfl

/-- A text of plain characters stands for itself. -/
theorem spells_of_plain {text : List Char} (plain : text.all isPlain = true) :
    Spells text text := by
  induction text with
  | nil => exact .nil
  | cons first rest ih =>
      rw [List.all_cons, Bool.and_eq_true] at plain
      exact .cons (.plain plain.1) (ih plain.2)

/-- A string that is read may also be passed over. -/
theorem Spells.isWritten {written content : List Char} (spells : Spells written content) :
    IsWritten written := by
  induction spells with
  | nil => exact .nil
  | cons first _ ih =>
      cases first with
      | plain plain => exact .plain plain ih
      | escape escape => exact .escape escape ih
      | unit spelled => exact .unit spelled ih
      | pair beyond leading trailing =>
          rw [List.cons_append, List.cons_append, List.append_assoc]
          exact .unit leading (.unit trailing ih)

namespace IsWritten

variable {written : List Char}

/-- A string is passed over up to its closing quote. -/
theorem skip_append (isWritten : IsWritten written) (rest : List Char) :
    skip (written ++ '"' :: rest) = .ok rest := by
  induction isWritten with
  | nil => rw [List.nil_append, skip, if_pos rfl]
  | plain plain _ ih =>
      obtain ⟨noQuote, noBackslash, printable⟩ := isPlain_iff.mp plain
      rw [List.cons_append, skip, if_neg noQuote, if_neg noBackslash, if_neg printable, ih]
  | @escape mark character written escape _ ih =>
      have passed : skipEscape (mark :: (written ++ '"' :: rest)) =
          .ok (written ++ '"' :: rest) := by
        rw [skipEscape, if_neg escape.mark_ne, escape.simpleEscape?_eq]
        rfl
      exact (skip_backslash passed).trans ih
  | @unit digits written code spelled _ ih =>
      have passed : skipEscape ('u' :: (digits ++ (written ++ '"' :: rest))) =
          .ok (written ++ '"' :: rest) := by
        rw [skipEscape, if_pos rfl, spelled.unit_append]
        rfl
      rw [List.cons_append, List.cons_append, List.append_assoc]
      exact (skip_backslash passed).trans ih

/-- What a reader makes of a string does not depend on what stands behind the closing quote. -/
def Settles (reader : List Char → Except Fault (List Char × List Char)) (written : List Char) :
    Prop :=
  ∃ result : Except Fault (List Char),
    ∀ rest, reader (written ++ '"' :: rest) = result.map fun content => (content, rest)

variable {reader : List Char → Except Fault (List Char × List Char)}

theorem Settles.of_error (fault : Fault)
    (failed : ∀ rest, reader (written ++ '"' :: rest) = .error fault) : Settles reader written :=
  ⟨.error fault, failed⟩

theorem Settles.resume (settles : Settles read written) (front : List Char) (character : Char)
    (first : ∀ rest, reader (front ++ rest) = Quoted.resume (.ok (character, rest))) :
    Settles reader (front ++ written) := by
  obtain ⟨result, each⟩ := settles
  refine ⟨result.map (character :: ·), fun rest => ?_⟩
  rw [List.append_assoc, first, Quoted.resume, each]
  cases result <;> rfl

/-- Reads a string from where the second half of a pair is due. -/
def readPair (leading : Nat) (text : List Char) : Except Fault (List Char × List Char) :=
  Quoted.resume (pair leading text)

/--
What is read of a string is settled by the string. An escape may be the second half of a pair, so
the induction covers the strings behind a first half as well.
-/
theorem settles (isWritten : IsWritten written) :
    Settles read written ∧ ∀ leading, Settles (readPair leading) written := by
  induction isWritten with
  | nil =>
      refine ⟨⟨.ok [], read_quote⟩, fun leading => .of_error .cutSurrogatePair ?_⟩
      intro rest
      rw [List.nil_append, readPair, pair_of_ne (by decide), Quoted.resume]
  | @plain character written plain _ ih =>
      refine ⟨ih.1.resume [character] character (read_plain plain), fun leading => ?_⟩
      refine .of_error .cutSurrogatePair fun rest => ?_
      rw [List.cons_append, readPair, pair_of_ne (isPlain_iff.mp plain).2.1, Quoted.resume]
  | @escape mark character written escape _ ih =>
      refine ⟨ih.1.resume _ character (Symbol.escape escape).read_append, fun leading => ?_⟩
      refine .of_error .cutSurrogatePair fun rest => ?_
      rw [List.cons_append, List.cons_append, readPair,
        pair_of_mark_ne escape.mark_ne, Quoted.resume]
  | @unit digits written code spelled _ ih =>
      have split (rest : List Char) : '\\' :: 'u' :: (digits ++ written) ++ '"' :: rest =
          '\\' :: 'u' :: (digits ++ (written ++ '"' :: rest)) := by
        simp
      constructor
      · cases trailing : isTrailingSurrogate code with
        | true =>
            refine .of_error .loneSurrogate fun rest => ?_
            rw [split, read_backslash, escape_unit spelled, if_pos trailing, Quoted.resume]
        | false =>
            cases leading : isLeadingSurrogate code with
            | true =>
                obtain ⟨result, each⟩ := ih.2 code
                refine ⟨result, fun rest => ?_⟩
                rw [split, read_backslash, escape_unit spelled, trailing, leading,
                  if_neg Bool.false_ne_true, if_pos rfl]
                exact each rest
            | false => exact ih.1.resume _ _ (read_unit spelled trailing leading)
      · intro leading
        cases trailing : isTrailingSurrogate code with
        | true =>
            have second (rest : List Char) := pair_unit spelled leading rest
            simp only [if_pos trailing] at second
            exact ih.1.resume ('\\' :: 'u' :: digits) _ fun rest =>
              congrArg Quoted.resume (second rest)
        | false =>
            refine .of_error .loneSurrogate fun rest => ?_
            rw [split, readPair, pair_unit spelled, trailing, if_neg Bool.false_ne_true,
              Quoted.resume]

end IsWritten

end Quoted

/-! ## Numbers -/

namespace Number

open Decimal (IsWord Written Exponent)

/--
Digits without a needless zero in front, behind a minus sign or none, and then a fraction and an
exponent or neither.
-/
inductive IsWritten : List Char → Prop where
  | of {whole tail : List Char} {fraction : Option (List Char)} {exponent : Int} (negative : Bool)
      (word : IsWord whole) (nonempty : whole ≠ [])
      (leading : whole.head? = some '0' → whole.length = 1)
      (isFraction : ∀ digits ∈ fraction, IsWord digits ∧ digits ≠ [])
      (exponentText : Exponent tail exponent) :
      IsWritten (minusText negative ++ (whole ++ (Written.fractionText fraction ++ tail)))

/-- An exponent is taken up to its end, whatever fault a missing one would be. -/
theorem exists_takeExponent {tail : List Char} {value : Int} (spelled : Exponent tail value) :
    ∃ exponent, ∀ missing {rest}, EndsNumber rest →
      takeExponent missing (tail ++ rest) = .ok (exponent, rest) := by
  cases spelled with
  | none => exact ⟨none, fun _ _ ends => takeExponent_append none ends⟩
  | @marked mark text value isMark integer =>
      refine ⟨some value, fun missing rest ends => ?_⟩
      cases integer with
      | @of sign digits negative signed nonempty word =>
          have unsigned : ∀ next ∈ (digits ++ rest).head?, next ≠ '+' ∧ next ≠ '-' := by
            intro next starts
            rw [List.head?_append_of_ne_nil _ nonempty] at starts
            exact Decimal.digit_ne (word next (List.mem_of_mem_head? starts))
          rw [List.cons_append, List.append_assoc, takeExponent, if_pos isMark,
            Decimal.Numeral.takeSign_append signed unsigned]
          simp only [takeDigits_append word nonempty ends.endsWord, Except.map]

/-- A number is taken up to its end, whatever fault a missing part would be. -/
theorem IsWritten.exists_takeParts {written : List Char} (isWritten : IsWritten written) :
    ∃ parts, ∀ missing {rest}, EndsNumber rest →
      takeParts missing (written ++ rest) = .ok (parts, rest) := by
  obtain @⟨whole, tail, fraction, _, negative, word, nonempty, leading, isFraction, exponentText⟩ :=
    isWritten
  obtain ⟨exponent, taken⟩ := exists_takeExponent exponentText
  have proper : (Written.mk whole fraction exponent).IsProper :=
    ⟨word, nonempty, leading, isFraction⟩
  refine ⟨⟨negative, whole, fraction, exponent⟩, fun missing rest ends => ?_⟩
  have apart : ∀ next ∈ (tail ++ rest).head?, next.isDigit = false ∧ next ≠ '.' := by
    intro next starts
    cases tail with
    | nil => exact ⟨(ends next starts).1, (ends next starts).2.1⟩
    | cons mark others =>
        have other := exponentText.isTail.head_ne next starts
        exact ⟨other.1, other.2.1⟩
  simp only [List.append_assoc]
  exact takeParts_tail proper negative apart (taken missing ends)

end Number

/-! ## Values -/

mutual

/-- A value. -/
inductive IsValue : List Char → Prop where
  | nullWord : IsValue ['n', 'u', 'l', 'l']
  | trueWord : IsValue ['t', 'r', 'u', 'e']
  | falseWord : IsValue ['f', 'a', 'l', 's', 'e']
  | string {text : List Char} (written : Quoted.IsWritten text) : IsValue ('"' :: (text ++ ['"']))
  | number {text : List Char} (written : Number.IsWritten text) : IsValue text
  | emptyList {gap : List Char} (isGap : IsGap gap) : IsValue ('[' :: (gap ++ [']']))
  | list {text : List Char} (items : AreItems text) : IsValue ('[' :: (text ++ [']']))
  | emptyObject {gap : List Char} (isGap : IsGap gap) : IsValue ('\x7b' :: (gap ++ ['\x7d']))
  | object {text : List Char} (members : AreMembers text) :
      IsValue ('\x7b' :: (text ++ ['\x7d']))

/-- A value with blanks around it. -/
inductive IsItem : List Char → Prop where
  | of {before text after : List Char} (isBefore : IsGap before) (isValue : IsValue text)
      (isAfter : IsGap after) : IsItem (before ++ (text ++ after))

/-- Items with commas between them. -/
inductive AreItems : List Char → Prop where
  | one {text : List Char} (item : IsItem text) : AreItems text
  | cons {text others : List Char} (item : IsItem text) (items : AreItems others) :
      AreItems (text ++ ',' :: others)

/-- A key and a value, each with blanks around it, and a colon between them. -/
inductive IsMember : List Char → Prop where
  | of {before key after text : List Char} (isBefore : IsGap before)
      (written : Quoted.IsWritten key) (isAfter : IsGap after) (item : IsItem text) :
      IsMember (before ++ '"' :: (key ++ '"' :: (after ++ ':' :: text)))

/-- Members with commas between them. -/
inductive AreMembers : List Char → Prop where
  | one {text : List Char} (member : IsMember text) : AreMembers text
  | cons {text others : List Char} (member : IsMember text) (members : AreMembers others) :
      AreMembers (text ++ ',' :: others)

end

end Json

end PrefixArith
