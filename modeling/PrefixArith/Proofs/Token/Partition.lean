import Mathlib.Data.List.Chain
import PrefixArith.Proofs.Token.Division

/-!
# The partition of a text by its lexemes

The lexemes that are read from a text stand in it in order and apart from each other. Their own texts
are what stands between their positions, and all the rest of the text is separators. Positions are
byte offsets into the UTF-8 form, always between two characters.
-/

namespace PrefixArith

namespace Text

theorem utf8ByteSize_ofList (text : List Char) : (String.ofList text).utf8ByteSize = size text := by
  induction text with
  | nil => rfl
  | cons character text ih => simp [String.ofList_cons, ih]

theorem utf8ByteSize_eq_size (text : String) : text.utf8ByteSize = size text.toList := by
  rw [← utf8ByteSize_ofList, String.ofList_toList]

/-- A text holds a part between two positions, both of them at a boundary of characters. -/
def Holds (text : String) (start stop : Nat) (part : String) : Prop :=
  ∃ before after : String, text = before ++ part ++ after ∧
    before.utf8ByteSize = start ∧ (before ++ part).utf8ByteSize = stop

theorem Holds.of_toList {text part : String} {before after : List Char}
    (whole : text.toList = before ++ part.toList ++ after) :
    Holds text (size before) (size before + size part.toList) part := by
  refine ⟨String.ofList before, String.ofList after, ?_, utf8ByteSize_ofList before, ?_⟩
  · apply String.toList_injective
    simpa using whole
  · rw [String.utf8ByteSize_append, utf8ByteSize_ofList, utf8ByteSize_eq_size part]

/-- Between two positions stands nothing but separators. -/
def SeparatorsBetween (text : String) (start stop : Nat) : Prop :=
  ∃ gap : String, Holds text start stop gap ∧
    ∀ character ∈ gap.toList, isSeparator character = true

theorem SeparatorsBetween.of_toList {text : String} {before gap after : List Char}
    (whole : text.toList = before ++ gap ++ after)
    (separators : ∀ character ∈ gap, isSeparator character = true) :
    SeparatorsBetween text (size before) (size before + size gap) := by
  refine ⟨String.ofList gap, ?_, by simpa using separators⟩
  have parts : text.toList = before ++ (String.ofList gap).toList ++ after := by simpa using whole
  simpa using Holds.of_toList parts

end Text

namespace Token

/-- Whether a token is an atom. -/
def IsAtom : Token → Prop
  | atom _ => True
  | _ => False

end Token

namespace Lexeme

/-- From a position on, a text holds nothing but separators before, between and after lexemes. -/
def SeparatedFrom (text : String) (position : Nat) : List Lexeme → Prop
  | [] => Text.SeparatorsBetween text position text.utf8ByteSize
  | first :: rest =>
      Text.SeparatorsBetween text position first.start ∧ SeparatedFrom text first.stop rest

/-- What lexemes are to the text that they are read from. -/
structure Partition (text : String) (lexemes : List Lexeme) : Prop where
  /-- The token's own text is what stands between the positions. -/
  holds : ∀ lexeme ∈ lexemes, Text.Holds text lexeme.start lexeme.stop lexeme.token.text
  /-- No lexeme is empty. -/
  start_lt_stop : ∀ lexeme ∈ lexemes, lexeme.start < lexeme.stop
  /-- A lexeme ends before all later ones start. -/
  increasing : lexemes.Pairwise fun left right => left.stop ≤ right.start
  /-- What is in no lexeme is separators. -/
  separated : SeparatedFrom text 0 lexemes
  /-- An atom has neither separators nor parentheses. -/
  atoms : ∀ lexeme ∈ lexemes, ∀ word, lexeme.token = .atom word → ∀ character ∈ word.toList,
    Text.isSeparator character = false ∧ character ≠ '(' ∧ character ≠ ')'
  /-- Between two atoms in a row stands something. -/
  maximal : lexemes.IsChain fun left right =>
    left.token.IsAtom → right.token.IsAtom → left.stop < right.start

namespace Division

variable {position : Nat} {rest : List Char} {lexemes : List Lexeme}

theorem position_le (division : Division position rest lexemes) :
    ∀ lexeme ∈ lexemes, position ≤ lexeme.start := by
  induction division with
  | done => simp
  | separator separates others ih =>
      intro lexeme member
      exact Nat.le_trans (Nat.le_add_right _ _) (ih lexeme member)
  | token precedes others ih =>
      intro lexeme member
      rcases List.mem_cons.mp member with rfl | member
      · exact Nat.le_refl _
      · exact Nat.le_trans (Nat.le_add_right _ _) (ih lexeme member)

theorem start_lt_stop (division : Division position rest lexemes) :
    ∀ lexeme ∈ lexemes, lexeme.start < lexeme.stop := by
  induction division with
  | done => simp
  | separator separates others ih => exact ih
  | @token position token rest lexemes precedes others ih =>
      intro lexeme member
      rcases List.mem_cons.mp member with rfl | member
      · cases characters : token.text.toList with
        | nil => exact absurd characters precedes.text_ne_nil
        | cons start tail =>
            have positive := start.utf8Size_pos
            change position < position + (start.utf8Size + Text.size tail)
            omega
      · exact ih lexeme member

theorem increasing (division : Division position rest lexemes) :
    lexemes.Pairwise fun left right => left.stop ≤ right.start := by
  induction division with
  | done => exact .nil
  | separator separates others ih => exact ih
  | token precedes others ih => exact .cons others.position_le ih

theorem holds (division : Division position rest lexemes) {text : String} (before : List Char)
    (whole : text.toList = before ++ rest) (placed : Text.size before = position) :
    ∀ lexeme ∈ lexemes, Text.Holds text lexeme.start lexeme.stop lexeme.token.text := by
  induction division generalizing before with
  | done => simp
  | @separator position start rest lexemes separates others ih =>
      apply ih (before ++ [start]) (by simpa using whole)
      simp [placed]
  | @token position token rest lexemes precedes others ih =>
      intro lexeme member
      rcases List.mem_cons.mp member with rfl | member
      · rw [← placed]
        exact .of_toList (by simpa using whole)
      · exact ih (before ++ token.text.toList) (by simpa using whole)
          (by simp [placed]) lexeme member

/-- The separators that were passed since the last lexeme are a gap of their own. -/
theorem separatedFrom (division : Division position rest lexemes) {text : String}
    (before gap : List Char) (whole : text.toList = before ++ gap ++ rest)
    (separators : ∀ character ∈ gap, Text.isSeparator character = true)
    (placed : Text.size before + Text.size gap = position) :
    SeparatedFrom text (Text.size before) lexemes := by
  induction division generalizing before gap with
  | done =>
      have total : text.utf8ByteSize = Text.size before + Text.size gap := by
        rw [Text.utf8ByteSize_eq_size, whole]
        simp
      rw [SeparatedFrom, total]
      exact .of_toList whole separators
  | @separator position start rest lexemes separates others ih =>
      apply ih before (gap ++ [start]) (by simpa using whole)
      · intro character member
        rcases List.mem_append.mp member with member | member
        · exact separators character member
        · rw [List.mem_singleton.mp member]
          exact separates
      · simp [← placed, Nat.add_assoc]
  | @token position token rest lexemes precedes others ih =>
      refine ⟨?_, ?_⟩
      · rw [← placed]
        exact .of_toList whole separators
      · have behind := ih (before ++ gap ++ token.text.toList) []
          (by simpa using whole) (by simp) (by simp [← placed, Nat.add_assoc])
        simpa [← placed, Nat.add_assoc] using behind

theorem atoms (division : Division position rest lexemes) :
    ∀ lexeme ∈ lexemes, ∀ word, lexeme.token = .atom word → ∀ character ∈ word.toList,
      Text.isSeparator character = false ∧ character ≠ '(' ∧ character ≠ ')' := by
  induction division with
  | done => simp
  | separator separates others ih => exact ih
  | token precedes others ih =>
      intro lexeme member
      rcases List.mem_cons.mp member with rfl | member
      · rintro word rfl character inside
        exact (Token.isAtomCharacter_iff character).mp (precedes.2.1 character inside)
      · exact ih lexeme member

/-- An atom comes behind separators, unless the text starts with it. -/
theorem starts_with_atom {first : Lexeme} (division : Division position rest (first :: lexemes))
    (isAtom : first.token.IsAtom) :
    position < first.start ∨ ∃ start ∈ rest.head?, Token.isAtomCharacter start = true := by
  cases division with
  | @separator _ start _ _ separates others =>
      have positive := start.utf8Size_pos
      have behind := others.position_le first List.mem_cons_self
      exact .inl (by omega)
  | @token _ token _ _ precedes others =>
      cases token with
      | opening => exact isAtom.elim
      | closing => exact isAtom.elim
      | atom word =>
          refine .inr ?_
          cases characters : word.toList with
          | nil => exact absurd characters precedes.1
          | cons start tail =>
              exact ⟨start, by simp [Token.text, characters],
                precedes.2.1 start (by simp [characters])⟩

theorem maximal (division : Division position rest lexemes) :
    lexemes.IsChain fun left right =>
      left.token.IsAtom → right.token.IsAtom → left.stop < right.start := by
  induction division with
  | done => exact .nil
  | separator separates others ih => exact ih
  | @token position token rest lexemes precedes others ih =>
      cases lexemes with
      | nil => exact .singleton _
      | cons next lexemes =>
          refine .cons_cons ?_ ih
          intro leftAtom rightAtom
          cases token with
          | opening => exact leftAtom.elim
          | closing => exact leftAtom.elim
          | atom word =>
              rcases others.starts_with_atom rightAtom with behind | ⟨start, starts, continues⟩
              · exact behind
              · rw [precedes.2.2 start starts] at continues
                cases continues

theorem partition {text : String} (division : Division 0 text.toList lexemes) :
    Partition text lexemes where
  holds := division.holds [] (by simp) rfl
  start_lt_stop := division.start_lt_stop
  increasing := division.increasing
  separated := division.separatedFrom [] [] (by simp) (by simp) rfl
  atoms := division.atoms
  maximal := division.maximal

end Division

/-- The result of reading lexemes, given the division of the text. -/
theorem read_eq {text : String} {lexemes : List Lexeme} (division : Division 0 text.toList lexemes) :
    read text = if lexemes = [] then .error .noToken else .ok lexemes := by
  unfold read
  rw [division.readFrom_eq]
  cases lexemes <;> rfl

/--
Reading lexemes fails exactly on a text of nothing but separators, and then for want of a token. Of
every other text the lexemes are a partition.
-/
theorem read_partitions (text : String) :
    (read text = .error .noToken ↔
      ∀ character ∈ text.toList, Text.isSeparator character = true) ∧
    ((∃ lexemes, read text = .ok lexemes ∧ lexemes ≠ [] ∧ Partition text lexemes) ↔
      ∃ character ∈ text.toList, Text.isSeparator character = false) := by
  obtain ⟨lexemes, division⟩ := exists_division 0 text.toList
  rw [read_eq division]
  cases lexemes with
  | nil =>
      have separators := Division.nil_iff.mp division
      refine ⟨by simpa using separators, ?_⟩
      constructor
      · rintro ⟨lexemes, impossible, _⟩
        cases impossible
      · rintro ⟨character, member, noSeparator⟩
        rw [separators character member] at noSeparator
        cases noSeparator
  | cons first lexemes =>
      have notAll : ¬ ∀ character ∈ text.toList, Text.isSeparator character = true := by
        intro separators
        have none : Division 0 text.toList [] := Division.nil_iff.mpr separators
        have read := none.readFrom_eq
        rw [division.readFrom_eq] at read
        cases read
      rw [if_neg (List.cons_ne_nil first lexemes)]
      refine ⟨⟨nofun, fun all => absurd all notAll⟩, ?_⟩
      constructor
      · intro _
        by_contra noToken
        refine notAll fun character member => ?_
        by_contra other
        exact noToken ⟨character, member, by simpa using other⟩
      · intro _
        exact ⟨first :: lexemes, rfl, by simp, division.partition⟩

end Lexeme

end PrefixArith
