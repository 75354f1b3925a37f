import Mathlib.Data.List.Basic
import PrefixArith.Token.Lexeme

/-!
# Divisions of a text into lexemes

A division walks over a text from front to back. It passes a separator, or takes a token that the
text behind it does not continue, and it notes the bytes between which the token stood. Reading
lexemes never fails before it has seen the whole text, and it finds exactly the division.
-/

namespace PrefixArith

namespace Token

theorem isAtomCharacter_iff (character : Char) :
    isAtomCharacter character = true ↔
      Text.isSeparator character = false ∧ character ≠ '(' ∧ character ≠ ')' := by
  simp [isAtomCharacter, isParenthesis]

/--
A token at the front of a text can be told from the rest: an atom has characters, only those of
atoms, and the rest does not go on with another one.
-/
def Precedes : Token → List Char → Prop
  | atom text, rest =>
      text.toList ≠ [] ∧ (∀ character ∈ text.toList, isAtomCharacter character = true) ∧
        ∀ character ∈ rest.head?, isAtomCharacter character = false
  | _, _ => True

theorem Precedes.text_ne_nil {token : Token} {rest : List Char} (precedes : token.Precedes rest) :
    token.text.toList ≠ [] := by
  cases token with
  | opening => simp [text]
  | closing => simp [text]
  | atom text => exact precedes.1

/-- More text behind the rest changes nothing where no character of an atom comes first in it. -/
theorem Precedes.append {token : Token} {rest : List Char} (precedes : token.Precedes rest)
    {more : List Char} (apart : ∀ character ∈ more.head?, isAtomCharacter character = false) :
    token.Precedes (rest ++ more) := by
  cases token with
  | opening => trivial
  | closing => trivial
  | atom text =>
      obtain ⟨nonempty, inside, behind⟩ := precedes
      refine ⟨nonempty, inside, ?_⟩
      cases rest with
      | nil => exact apart
      | cons next others => exact behind

/-- Less of the rest behind a token changes nothing, as long as it is a front of it. -/
theorem Precedes.of_append {token : Token} {rest more : List Char}
    (precedes : token.Precedes (rest ++ more)) : token.Precedes rest := by
  cases token with
  | opening => trivial
  | closing => trivial
  | atom text =>
      obtain ⟨nonempty, inside, behind⟩ := precedes
      refine ⟨nonempty, inside, fun character starts => behind character ?_⟩
      rw [List.head?_append, Option.mem_def.mp starts]
      rfl

/-- No atom goes on across the border between two texts. -/
def Apart (before after : List Char) : Prop :=
  ∀ last ∈ before.getLast?, isAtomCharacter last = true →
    ∀ next ∈ after.head?, isAtomCharacter next = false

theorem Apart.append {before middle after : List Char} (whole : Apart middle after)
    (border : middle = [] → Apart before after) : Apart (before ++ middle) after := by
  intro last ends
  rw [List.getLast?_append] at ends
  cases ending : middle.getLast? with
  | none =>
      rw [ending, Option.none_or] at ends
      exact border (List.getLast?_eq_none_iff.mp ending) last ends
  | some character =>
      rw [ending, Option.some_or] at ends
      exact whole last (by rw [ending]; exact ends)

theorem Precedes.apart {token : Token} {rest : List Char} (precedes : token.Precedes rest) :
    Apart token.text.toList rest := by
  intro last ends continues
  cases token with
  | opening =>
      obtain rfl : '(' = last := by simpa [text] using ends
      cases continues
  | closing =>
      obtain rfl : ')' = last := by simpa [text] using ends
      cases continues
  | atom word => exact precedes.2.2

/-- An atom that does not go on from the text before it comes behind no character of an atom. -/
theorem Apart.not_isAtomCharacter {before rest : List Char} {word : String}
    (border : Apart before ((atom word).text.toList ++ rest)) (precedes : (atom word).Precedes rest) :
    ∀ last ∈ before.getLast?, isAtomCharacter last = false := by
  intro last ends
  by_contra continues
  cases characters : word.toList with
  | nil => exact precedes.1 characters
  | cons start others =>
      have starts : start ∈ ((atom word).text.toList ++ rest).head? := by simp [text, characters]
      have isAtom := precedes.2.1 start (by simp [characters])
      rw [border last ends (by simpa using continues) start starts] at isAtom
      cases isAtom

/-- No token starts with a separator. -/
theorem Precedes.not_isSeparator {token : Token} {rest : List Char}
    (precedes : token.Precedes rest) {start : Char} (starts : start ∈ token.text.toList.head?) :
    Text.isSeparator start = false := by
  cases token with
  | opening =>
      obtain rfl : '(' = start := by simpa [text] using starts
      rfl
  | closing =>
      obtain rfl : ')' = start := by simpa [text] using starts
      rfl
  | atom word =>
      have inWord : start ∈ word.toList := List.mem_of_mem_head? starts
      exact ((isAtomCharacter_iff start).mp (precedes.2.1 start inWord)).1

theorem first_opening (rest : List Char) : first '(' rest = (opening, rest) := rfl

theorem first_closing (rest : List Char) : first ')' rest = (closing, rest) := rfl

theorem first_atom {start : Char} (isAtom : isAtomCharacter start = true) (rest : List Char) :
    first start rest =
      (atom (String.ofList (start :: rest.takeWhile isAtomCharacter)),
        rest.dropWhile isAtomCharacter) := by
  obtain ⟨_, notOpening, notClosing⟩ := (isAtomCharacter_iff start).mp isAtom
  rw [first, if_neg notOpening, if_neg notClosing]

/-- Whatever does not start with a separator starts with a token. -/
theorem front?_first {start : Char} (noSeparator : Text.isSeparator start = false)
    (rest : List Char) : front? (start :: rest) = some (first start rest) := by
  rw [front?_cons, if_pos]
  cases parenthesis : isParenthesis start <;> simp [isAtomCharacter, noSeparator, parenthesis]

/-- The token that is taken and the rest make up the text, and the token can be told from it. -/
theorem first_precedes {start : Char} (noSeparator : Text.isSeparator start = false)
    (rest : List Char) :
    (first start rest).1.text.toList ++ (first start rest).2 = start :: rest ∧
      (first start rest).1.Precedes (first start rest).2 := by
  by_cases isAtom : isAtomCharacter start = true
  · rw [first_atom isAtom]
    refine ⟨by simp [text], by simp, ?_, ?_⟩
    · intro character member
      rw [String.toList_ofList] at member
      rcases List.mem_cons.mp member with rfl | member
      · exact isAtom
      · exact List.all_eq_true.mp List.all_takeWhile character member
    · intro character starts
      have stops := List.head?_dropWhile_not isAtomCharacter rest
      rw [Option.mem_def.mp starts] at stops
      exact stops
  · have parenthesis : start = '(' ∨ start = ')' := by
      by_contra neither
      rw [not_or] at neither
      exact isAtom ((isAtomCharacter_iff start).mpr ⟨noSeparator, neither⟩)
    rcases parenthesis with rfl | rfl
    · rw [first_opening]
      exact ⟨by simp [text], trivial⟩
    · rw [first_closing]
      exact ⟨by simp [text], trivial⟩

/-- A token that can be told from the rest is the one that is taken from the front. -/
theorem front?_append {token : Token} {rest : List Char} (precedes : token.Precedes rest) :
    front? (token.text.toList ++ rest) = some (token, rest) := by
  cases token with
  | opening => rfl
  | closing => rfl
  | atom word =>
      obtain ⟨nonempty, inside, behind⟩ := precedes
      cases characters : word.toList with
      | nil => exact absurd characters nonempty
      | cons start others =>
          rw [characters] at inside
          have isAtom := inside start List.mem_cons_self
          have othersInside : ∀ character ∈ others, isAtomCharacter character = true :=
            fun character member => inside character (List.mem_cons_of_mem _ member)
          have restTaken : rest.takeWhile isAtomCharacter = [] ∧
              rest.dropWhile isAtomCharacter = rest := by
            cases rest with
            | nil => exact ⟨rfl, rfl⟩
            | cons next _ => simp [behind next rfl]
          simp only [text, characters, List.cons_append]
          rw [front?_first ((isAtomCharacter_iff start).mp isAtom).1, first_atom isAtom,
            List.takeWhile_append_of_pos othersInside, List.dropWhile_append_of_pos othersInside,
            restTaken.1, restTaken.2, List.append_nil, ← characters, String.ofList_toList]

end Token

namespace Lexeme

/-- The lexemes into which a text is divided whose first character is at a position. -/
inductive Division : Nat → List Char → List Lexeme → Prop where
  | done (position : Nat) : Division position [] []
  | separator {position : Nat} {start : Char} {rest : List Char} {lexemes : List Lexeme}
      (separates : Text.isSeparator start = true)
      (others : Division (position + start.utf8Size) rest lexemes) :
      Division position (start :: rest) lexemes
  | token {position : Nat} {token : Token} {rest : List Char} {lexemes : List Lexeme}
      (precedes : token.Precedes rest)
      (others : Division (position + Text.size token.text.toList) rest lexemes) :
      Division position (token.text.toList ++ rest)
        (⟨token, position, position + Text.size token.text.toList⟩ :: lexemes)

@[simp]
theorem readFrom_nil (position : Nat) : readFrom position [] = .ok [] := by
  rw [readFrom.eq_def]

theorem readFrom_separator {start : Char} (separates : Text.isSeparator start = true)
    (position : Nat) (rest : List Char) :
    readFrom position (start :: rest) = readFrom (position + start.utf8Size) rest := by
  rw [readFrom.eq_def]
  exact if_pos separates

theorem readFrom_token {token : Token} {rest : List Char} (precedes : token.Precedes rest)
    (position : Nat) :
    readFrom position (token.text.toList ++ rest) =
      (readFrom (position + Text.size token.text.toList) rest).map
        (⟨token, position, position + Text.size token.text.toList⟩ :: ·) := by
  have front := Token.front?_append precedes
  cases characters : token.text.toList with
  | nil => exact absurd characters precedes.text_ne_nil
  | cons start others =>
      have noSeparator : Text.isSeparator start = false :=
        precedes.not_isSeparator (by simp [characters])
      rw [characters, List.cons_append] at front
      rw [List.cons_append, readFrom.eq_def]
      dsimp only
      rw [if_neg (by simp [noSeparator])]
      split
      · next missing => rw [front] at missing; cases missing
      · next found =>
          rw [front] at found
          cases found
          simp only [characters]
          cases readFrom (position + Text.size (start :: others)) rest <;> rfl

/-- Reading finds every division. -/
theorem Division.readFrom_eq {position : Nat} {text : List Char} {lexemes : List Lexeme}
    (division : Division position text lexemes) : readFrom position text = .ok lexemes := by
  induction division with
  | done position => exact readFrom_nil position
  | separator separates others ih => rw [readFrom_separator separates, ih]
  | token precedes others ih => rw [readFrom_token precedes, ih]; rfl

/-- Every text has a division, whatever its characters. -/
theorem exists_division (position : Nat) (text : List Char) :
    ∃ lexemes, Division position text lexemes := by
  match text with
  | [] => exact ⟨[], .done position⟩
  | start :: rest =>
      by_cases separates : Text.isSeparator start = true
      · obtain ⟨lexemes, others⟩ := exists_division (position + start.utf8Size) rest
        exact ⟨lexemes, .separator separates others⟩
      · rw [Bool.not_eq_true] at separates
        obtain ⟨whole, precedes⟩ := Token.first_precedes separates rest
        obtain ⟨lexemes, others⟩ :=
          exists_division (position + Text.size (Token.first start rest).1.text.toList)
            (Token.first start rest).2
        rw [← whole]
        exact ⟨_, .token precedes others⟩
  termination_by text.length
  decreasing_by
    · exact Nat.lt_succ_self _
    · exact Nat.lt_succ_of_le (Token.first_length_le start rest)

/-- Reading lexemes from a position finds exactly the division of the text. -/
theorem readFrom_eq_ok_iff {position : Nat} {text : List Char} {lexemes : List Lexeme} :
    readFrom position text = .ok lexemes ↔ Division position text lexemes := by
  constructor
  · intro found
    obtain ⟨others, division⟩ := exists_division position text
    rw [division.readFrom_eq] at found
    cases found
    exact division
  · exact Division.readFrom_eq

namespace Division

/-- A text that is divided into no lexemes holds nothing but separators. -/
theorem nil_iff {position : Nat} {text : List Char} :
    Division position text [] ↔ ∀ character ∈ text, Text.isSeparator character = true := by
  constructor
  · intro division
    generalize none : ([] : List Lexeme) = lexemes at division
    induction division with
    | done => simp
    | separator separates others ih => simpa [separates] using ih none
    | token => cases none
  · intro separators
    induction text generalizing position with
    | nil => exact .done position
    | cons start rest ih =>
        exact .separator (separators start List.mem_cons_self)
          (ih fun character member => separators character (List.mem_cons_of_mem _ member))

/-- Two texts are divided one after the other where no atom goes on across their border. -/
theorem append {position : Nat} {left right : List Char} {lexemes others : List Lexeme}
    (first : Division position left lexemes)
    (second : Division (position + Text.size left) right others)
    (apart : ∀ character ∈ right.head?, Token.isAtomCharacter character = false) :
    Division position (left ++ right) (lexemes ++ others) := by
  induction first with
  | done position => exact second
  | separator separates _ ih =>
      rw [Text.size_cons, ← Nat.add_assoc] at second
      exact .separator separates (ih second)
  | token precedes _ ih =>
      rw [Text.size_append, ← Nat.add_assoc] at second
      rw [List.append_assoc, List.cons_append]
      exact .token (precedes.append apart) (ih second)

/-- A text is cut in front of each lexeme of its division, where no atom goes on across the cut. -/
theorem split {position : Nat} {text : List Char} {left right : List Lexeme} {lexeme : Lexeme}
    (division : Division position text (left ++ lexeme :: right)) :
    ∃ before after : List Char, text = before ++ (lexeme.token.text.toList ++ after) ∧
      lexeme.start = position + Text.size before ∧ Division position before left ∧
        lexeme.token.Precedes after ∧ Token.Apart before (lexeme.token.text.toList ++ after) := by
  generalize whole : left ++ lexeme :: right = lexemes at division
  induction division generalizing left with
  | done => simp at whole
  | @separator position start rest lexemes separates others ih =>
      obtain ⟨before, after, rfl, placed, divided, precedes, apart⟩ := ih whole
      refine ⟨start :: before, after, rfl, ?_, .separator separates divided, precedes, ?_⟩
      · rw [placed, Text.size_cons, Nat.add_assoc]
      · have border : Token.Apart [start] (lexeme.token.text.toList ++ after) := by
          intro last ends continues
          obtain rfl : start = last := by simpa using ends
          rw [Token.isAtomCharacter_iff, separates] at continues
          cases continues.1
        exact apart.append fun _ => border
  | @token position token rest lexemes precedes others ih =>
      cases left with
      | nil =>
          obtain ⟨rfl, rfl⟩ := List.cons.inj whole
          exact ⟨[], rest, rfl, rfl, .done position, precedes, nofun⟩
      | cons first left =>
          obtain ⟨rfl, remaining⟩ := List.cons.inj whole
          obtain ⟨before, after, rfl, placed, divided, precedesNext, apart⟩ := ih remaining
          refine ⟨token.text.toList ++ before, after, (List.append_assoc ..).symm, ?_,
            .token precedes.of_append divided, precedesNext, apart.append ?_⟩
          · rw [placed, Text.size_append, Nat.add_assoc]
          · rintro rfl
            exact precedes.apart

end Division

end Lexeme

end PrefixArith
