import Mathlib.Data.List.DropRight
import PrefixArith.Proofs.Token.Partition

/-!
# Tokens by rewriting the whole text

The tokens of a text are found in another way too, which rewrites the text as a whole: a space is
put on both sides of every parenthesis, every run of separators becomes one space, the spaces at
both ends are taken away, and what is left is split at its spaces. Reading lexemes from front to
back finds the same texts in the same order, and finds none where nothing is left.
-/

namespace PrefixArith

namespace Text

/-- A text with a space put on both sides of every parenthesis. -/
def setApart (text : List Char) : List Char :=
  text.flatMap fun character =>
    if Token.isParenthesis character then [' ', character, ' '] else [character]

/-- A text with one space in the place of every longest run of characters of a class. -/
def collapseRuns (inClass : Char → Bool) : List Char → List Char
  | [] => []
  | start :: rest =>
      if inClass start then ' ' :: collapseRuns inClass (rest.dropWhile inClass)
      else start :: collapseRuns inClass rest
  termination_by text => text.length
  decreasing_by
    · exact Nat.lt_succ_of_le (List.dropWhile_suffix _).length_le
    · exact Nat.lt_succ_self _

/-- A text with one space in the place of every longest run of separators. -/
def collapse (text : List Char) : List Char :=
  collapseRuns isSeparator text

/-- A text without the spaces at its two ends. -/
def trim (text : List Char) : List Char :=
  (text.dropWhile (· == ' ')).rdropWhile (· == ' ')

/-- A text with its parentheses set apart, its runs of separators collapsed and its ends trimmed. -/
def tidy (text : List Char) : List Char :=
  trim (collapse (setApart text))

/-! ## Setting apart -/

theorem setApart_cons {start : Char} (other : Token.isParenthesis start = false)
    (rest : List Char) : setApart (start :: rest) = start :: setApart rest := by
  simp [setApart, other]

theorem setApart_parenthesis {start : Char} (parenthesis : Token.isParenthesis start = true)
    (rest : List Char) : setApart (start :: rest) = ' ' :: start :: ' ' :: setApart rest := by
  simp [setApart, parenthesis]

theorem setApart_append {word : List Char}
    (others : ∀ character ∈ word, Token.isParenthesis character = false) (rest : List Char) :
    setApart (word ++ rest) = word ++ setApart rest := by
  induction word with
  | nil => rfl
  | cons start word ih =>
      rw [List.forall_mem_cons] at others
      rw [List.cons_append, setApart_cons others.1, ih others.2, List.cons_append]

/-! ## Collapsing -/

@[simp]
theorem collapse_nil : collapse [] = [] := by
  rw [collapse, collapseRuns]

theorem collapse_separator {start : Char} (separates : isSeparator start = true)
    (rest : List Char) :
    collapse (start :: rest) = ' ' :: collapse (rest.dropWhile isSeparator) := by
  rw [collapse, collapseRuns, if_pos separates, collapse]

theorem collapse_cons {start : Char} (other : isSeparator start = false) (rest : List Char) :
    collapse (start :: rest) = start :: collapse rest := by
  rw [collapse, collapseRuns, if_neg (by simp [other]), collapse]

theorem collapse_append {word : List Char}
    (others : ∀ character ∈ word, isSeparator character = false) (rest : List Char) :
    collapse (word ++ rest) = word ++ collapse rest := by
  induction word with
  | nil => rfl
  | cons start word ih =>
      rw [List.forall_mem_cons] at others
      rw [List.cons_append, collapse_cons others.1, ih others.2, List.cons_append]

/-- A text that does not start with a separator does not start with a space once it is collapsed. -/
theorem dropWhile_collapse_dropWhile (text : List Char) :
    (collapse (text.dropWhile isSeparator)).dropWhile (· == ' ') =
      collapse (text.dropWhile isSeparator) := by
  have stops := List.head?_dropWhile_not isSeparator text
  cases remaining : text.dropWhile isSeparator with
  | nil => rw [collapse_nil, List.dropWhile_nil]
  | cons start rest =>
      have other : isSeparator start = false := by simpa [remaining] using stops
      rw [collapse_cons other, List.dropWhile_cons_of_neg]
      rintro space
      rw [beq_iff_eq.mp space] at other
      cases other

/-- The spaces in front of a collapsed text are what is left of the separators in front. -/
theorem dropWhile_collapse (text : List Char) :
    (collapse text).dropWhile (· == ' ') = collapse (text.dropWhile isSeparator) := by
  cases text with
  | nil => rw [collapse_nil, List.dropWhile_nil, List.dropWhile_nil, collapse_nil]
  | cons start rest =>
      by_cases separates : isSeparator start = true
      · rw [collapse_separator separates, List.dropWhile_cons_of_pos (by simp),
          dropWhile_collapse_dropWhile, List.dropWhile_cons_of_pos separates]
      · have here : (start :: rest).dropWhile isSeparator = start :: rest :=
          List.dropWhile_cons_of_neg separates
        have kept := dropWhile_collapse_dropWhile (start :: rest)
        rwa [here] at kept ⊢

/-! ## Trimming -/

theorem rdropWhile_append (drops : Char → Bool) (left right : List Char) :
    (left ++ right).rdropWhile drops =
      if right.rdropWhile drops = [] then left.rdropWhile drops
      else left ++ right.rdropWhile drops := by
  simp only [List.rdropWhile, List.reverse_append, List.dropWhile_append, List.isEmpty_iff,
    List.reverse_eq_nil_iff]
  split <;> simp

theorem trim_collapse (text : List Char) :
    trim (collapse text) =
      (collapse (text.dropWhile isSeparator)).rdropWhile (· == ' ') := by
  rw [trim, dropWhile_collapse]

/-- A separator in front does not outlast the trimming. -/
theorem trim_collapse_separator {start : Char} (separates : isSeparator start = true)
    (rest : List Char) : trim (collapse (start :: rest)) = trim (collapse rest) := by
  rw [trim_collapse, trim_collapse, List.dropWhile_cons_of_pos separates]

/-- The end of a collapsed text behind a word is one space and the rest of it, or is nothing. -/
theorem rdropWhile_collapse {rest : List Char}
    (ends : ∀ next ∈ rest.head?, isSeparator next = true) :
    (collapse rest).rdropWhile (· == ' ') =
      if trim (collapse rest) = [] then [] else ' ' :: trim (collapse rest) := by
  cases rest with
  | nil => simp [trim]
  | cons next rest =>
      have separates := ends next rfl
      rw [trim_collapse, collapse_separator separates, List.dropWhile_cons_of_pos separates,
        ← List.singleton_append, rdropWhile_append]
      rfl

/-- A word in front stays as it is, one space before what is left of the rest. -/
theorem trim_collapse_append {word rest : List Char} (nonempty : word ≠ [])
    (others : ∀ character ∈ word, isSeparator character = false)
    (ends : ∀ next ∈ rest.head?, isSeparator next = true) :
    trim (collapse (word ++ rest)) =
      if trim (collapse rest) = [] then word else word ++ ' ' :: trim (collapse rest) := by
  have noSpace : ∀ character ∈ word, ¬ (character == ' ') = true := by
    intro character member space
    have other := others character member
    rw [beq_iff_eq.mp space] at other
    cases other
  have whole : word.rdropWhile (· == ' ') = word :=
    List.rdropWhile_eq_self_iff.mpr fun some => noSpace _ (List.getLast_mem some)
  have front : (word ++ rest).dropWhile isSeparator = word ++ rest := by
    obtain ⟨start, word, rfl⟩ := List.exists_cons_of_ne_nil nonempty
    exact List.dropWhile_cons_of_neg (by simp [others start List.mem_cons_self])
  rw [trim_collapse, front, collapse_append others, rdropWhile_append, whole,
    rdropWhile_collapse ends]
  split <;> simp

/-- Words that are not empty do not vanish when they are put together. -/
theorem intercalate_ne_nil {words : List (List Char)} (some : words ≠ []) (proper : [] ∉ words) :
    [' '].intercalate words ≠ [] := by
  obtain ⟨first, words, rfl⟩ := List.exists_cons_of_ne_nil some
  have nonempty : first ≠ [] := fun empty => proper (by simp [empty])
  cases words <;> simp [nonempty]

/-- Where the rest is tidied into words one space apart, a word in front becomes one of them. -/
theorem trim_collapse_eq_intercalate {word rest : List Char} {words : List (List Char)}
    (nonempty : word ≠ []) (others : ∀ character ∈ word, isSeparator character = false)
    (ends : ∀ next ∈ rest.head?, isSeparator next = true) (proper : [] ∉ words)
    (tidied : trim (collapse rest) = [' '].intercalate words) :
    trim (collapse (word ++ rest)) = [' '].intercalate (word :: words) := by
  rw [trim_collapse_append nonempty others ends, tidied]
  cases words with
  | nil => simp
  | cons second words =>
      have some := List.cons_ne_nil second words
      rw [if_neg (intercalate_ne_nil some proper), List.intercalate_cons_of_ne_nil some]
      simp

end Text

namespace Token

theorem isParenthesis_of_isSeparator {character : Char}
    (separates : Text.isSeparator character = true) : isParenthesis character = false := by
  by_contra parenthesis
  rw [Bool.not_eq_false, isParenthesis, Bool.or_eq_true, beq_iff_eq, beq_iff_eq] at parenthesis
  rcases parenthesis with rfl | rfl <;> cases separates

/-- No separator stands in a token. -/
theorem Precedes.not_isSeparator_of_mem {token : Token} {rest : List Char}
    (precedes : token.Precedes rest) :
    ∀ character ∈ token.text.toList, Text.isSeparator character = false := by
  intro character member
  cases token with
  | opening =>
      obtain rfl : character = '(' := by simpa [text] using member
      rfl
  | closing =>
      obtain rfl : character = ')' := by simpa [text] using member
      rfl
  | atom word => exact ((isAtomCharacter_iff character).mp (precedes.2.1 character member)).1

/-- Once parentheses are set apart, what does not go on with an atom goes on with a separator. -/
theorem isSeparator_of_mem_head?_setApart {rest : List Char}
    (apart : ∀ next ∈ rest.head?, isAtomCharacter next = false) :
    ∀ next ∈ (Text.setApart rest).head?, Text.isSeparator next = true := by
  cases rest with
  | nil => exact nofun
  | cons start rest =>
      have ends := apart start rfl
      cases parenthesis : isParenthesis start with
      | true =>
          rw [Text.setApart_parenthesis parenthesis]
          rintro _ ⟨⟩
          rfl
      | false =>
          rw [Text.setApart_cons parenthesis]
          rintro _ ⟨⟩
          simpa [isAtomCharacter, parenthesis] using ends

end Token

namespace Lexeme

/-- The text of a lexeme is not empty and holds no separator. -/
theorem Division.words {position : Nat} {text : List Char} {lexemes : List Lexeme}
    (division : Division position text lexemes) :
    ∀ word ∈ lexemes.map (·.token.text.toList),
      word ≠ [] ∧ ∀ character ∈ word, Text.isSeparator character = false := by
  induction division with
  | done => simp
  | separator separates others ih => exact ih
  | token precedes others ih =>
      rw [List.map_cons, List.forall_mem_cons]
      exact ⟨⟨precedes.text_ne_nil, precedes.not_isSeparator_of_mem⟩, ih⟩

/-- The texts of the lexemes of a text, one space apart, are the text tidied up. -/
theorem Division.tidy_eq {position : Nat} {text : List Char} {lexemes : List Lexeme}
    (division : Division position text lexemes) :
    Text.tidy text = [' '].intercalate (lexemes.map (·.token.text.toList)) := by
  unfold Text.tidy
  induction division with
  | done position => simp [Text.setApart, Text.trim]
  | separator separates others ih =>
      rw [Text.setApart_cons (Token.isParenthesis_of_isSeparator separates),
        Text.trim_collapse_separator separates, ih]
  | @token position token rest lexemes precedes others ih =>
      have proper : [] ∉ lexemes.map (·.token.text.toList) :=
        fun member => (others.words [] member).1 rfl
      rw [List.map_cons]
      have parenthesis (character : Char) (written : token.text.toList = [character])
          (is : Token.isParenthesis character = true)
          (noSeparator : Text.isSeparator character = false) :
          Text.trim (Text.collapse (Text.setApart (token.text.toList ++ rest))) =
            [' '].intercalate (token.text.toList :: lexemes.map (·.token.text.toList)) := by
        have space : Text.isSeparator ' ' = true := rfl
        have behind := (Text.trim_collapse_separator space (Text.setApart rest)).trans ih
        rw [written, List.singleton_append, Text.setApart_parenthesis is,
          Text.trim_collapse_separator space]
        refine Text.trim_collapse_eq_intercalate (List.cons_ne_nil character [])
          (by simpa using noSeparator) ?_ proper behind
        rintro _ ⟨⟩
        rfl
      cases token with
      | opening => exact parenthesis '(' (by simp [Token.text]) rfl rfl
      | closing => exact parenthesis ')' (by simp [Token.text]) rfl rfl
      | atom word =>
          obtain ⟨nonempty, inside, behind⟩ := precedes
          have characters (character : Char) (member : character ∈ word.toList) :=
            (Token.isAtomCharacter_iff character).mp (inside character member)
          rw [Token.text, Text.setApart_append]
          · exact Text.trim_collapse_eq_intercalate nonempty
              (fun character member => (characters character member).1)
              (Token.isSeparator_of_mem_head?_setApart behind) proper ih
          · intro character member
            simpa [Token.isParenthesis] using (characters character member).2

/--
Reading lexemes finds the same as rewriting the text. Where nothing is left of the tidied text,
there is no token, and only there; otherwise the texts of the tokens are what the tidied text falls
into when it is split at each of its spaces.
-/
theorem read_eq_splitOn_tidy (text : String) :
    (read text).map (List.map (·.token.text.toList)) =
      if Text.tidy text.toList = [] then .error .noToken
      else .ok ((Text.tidy text.toList).splitOn ' ') := by
  obtain ⟨lexemes, division⟩ := exists_division 0 text.toList
  rw [read_eq division, division.tidy_eq]
  cases lexemes with
  | nil => rfl
  | cons first lexemes =>
      have words := division.words
      have some : (first :: lexemes).map (·.token.text.toList) ≠ [] := List.cons_ne_nil _ _
      have left := Text.intercalate_ne_nil some fun member => (words [] member).1 rfl
      have noSpace : ∀ word ∈ (first :: lexemes).map (·.token.text.toList), ' ' ∉ word := by
        intro word member space
        have other := (words word member).2 ' ' space
        cases other
      rw [if_neg (List.cons_ne_nil first lexemes), if_neg left,
        List.splitOn_intercalate ' ' noSpace some]
      rfl

-- A parenthesis is set apart on both sides, and runs of separators of any kind are one space.
example : Text.tidy "\t(max 1(+\u3000\uFEFF2) )".toList = "( max 1 ( + 2 ) )".toList := by
  decide +kernel

end Lexeme

end PrefixArith
