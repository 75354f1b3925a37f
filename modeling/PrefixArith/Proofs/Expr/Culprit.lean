import PrefixArith.CommandLine.Report
import PrefixArith.Proofs.Expr.Scan
import PrefixArith.Proofs.Expr.Spelling

/-!
# What stands where a text is at fault

A fault that is found by reading a text has the position of the token at fault, which is a whole token
of the text: the parenthesis that closes nothing, is not closed or opens too deep a group, the unknown
atom, or the first token of the second expression. A report can therefore always put a caret under it.
-/

namespace PrefixArith

namespace Text

/-- The column of the position behind some characters is their number. -/
theorem column?_append (before after : List Char) :
    column? (before ++ after) (size before) = some before.length := by
  induction before with
  | nil => rw [size_nil, column?]; rfl
  | cons first before ih =>
      obtain ⟨position, size_eq⟩ := Nat.exists_eq_succ_of_ne_zero
        (Nat.add_pos_left first.utf8Size_pos (size before)).ne'
      rw [size_cons, size_eq, List.cons_append, column?, ← size_eq, if_neg (by omega),
        Nat.add_sub_cancel_left, ih]
      · rfl
      · exact nofun

end Text

namespace Token

theorem Precedes.exists_start {token : Token} {rest : List Char} (precedes : token.Precedes rest)
    (other : token ≠ .closing) :
    ∃ start ∈ token.text.toList.head?, Text.isSeparator start = false ∧ start ≠ ')' := by
  cases token with
  | opening => exact ⟨'(', by simp [text], rfl, by decide⟩
  | closing => exact absurd rfl other
  | atom word =>
      obtain ⟨start, others, characters⟩ := List.exists_cons_of_ne_nil precedes.1
      obtain ⟨distinct, -, notClosing⟩ :=
        (isAtomCharacter_iff start).mp (precedes.2.1 start (by simp [characters]))
      exact ⟨start, by simp [text, characters], distinct, notClosing⟩

end Token

namespace Malformed

/-- A fault is that of a lexeme, at whose start it is reported. -/
inductive Blames : Malformed → Lexeme → Prop where
  | unknownAtom {lexeme : Lexeme} {word : String} (atom : lexeme.token = .atom word) :
      Blames (.unknownAtom word lexeme.start) lexeme
  | unmatchedClosing {lexeme : Lexeme} (closing : lexeme.token = .closing) :
      Blames (.unmatchedClosing lexeme.start) lexeme
  | unclosed {lexeme : Lexeme} (opening : lexeme.token = .opening) :
      Blames (.unclosed lexeme.start) lexeme
  | tooDeep {lexeme : Lexeme} (limit : Nat) (opening : lexeme.token = .opening) :
      Blames (.tooDeep limit lexeme.start) lexeme

end Malformed

namespace Expr

namespace Scan

variable {limit : Nat} {scan : Scan}

theorem blames_of_step {lexeme : Lexeme} {fault : Malformed}
    (failed : scan.step limit lexeme = .error fault) : fault.Blames lexeme := by
  rcases step_eq_error failed with
    ⟨opening, -, rfl⟩ | ⟨closing, -, rfl⟩ | ⟨word, atom, -, rfl⟩
  · exact .tooDeep limit opening
  · exact .unmatchedClosing closing
  · exact .unknownAtom atom

/-- A parenthesis that is open after a lexeme was open before it or is the lexeme. -/
theorem opened_of_step {lexeme : Lexeme} {next : Scan} (stepped : scan.step limit lexeme = .ok next)
    {position : Nat} (remains : position ∈ next.opened) :
    position ∈ scan.opened ∨ (Malformed.unclosed position).Blames lexeme := by
  rcases step_eq_ok stepped with
    ⟨opening, -, rfl⟩ | ⟨innermost, outer, -, opened, rfl⟩ | ⟨word, leaf, -, -, rfl⟩
  · rcases List.mem_cons.mp remains with rfl | remains
    · exact .inr (.unclosed opening)
    · exact .inl remains
  · rw [opened]
    exact .inl (List.mem_cons_of_mem _ remains)
  · rw [opened_begin] at remains
    exact .inl remains

/-- A scan that stops early stops with the fault of one of the lexemes. -/
theorem blames_of_run {lexemes : List Lexeme} {fault : Malformed}
    (failed : scan.run limit lexemes = .error fault) : ∃ lexeme ∈ lexemes, fault.Blames lexeme := by
  obtain ⟨before, lexeme, after, next, rfl, -, stops⟩ := exists_step_of_run_error failed
  exact ⟨lexeme, by simp, blames_of_step stops⟩

/-- A parenthesis that is open after some lexemes was open before them or is one of them. -/
theorem opened_of_run {lexemes : List Lexeme} {last : Scan}
    (ran : scan.run limit lexemes = .ok last) {position : Nat} (remains : position ∈ last.opened) :
    position ∈ scan.opened ∨ ∃ lexeme ∈ lexemes, (Malformed.unclosed position).Blames lexeme := by
  induction lexemes generalizing scan with
  | nil =>
      cases ran
      exact .inl remains
  | cons first rest ih =>
      obtain ⟨next, stepped, ran⟩ := run_cons_eq_ok ran
      rcases ih ran with opened | ⟨lexeme, member, blames⟩
      · rcases opened_of_step stepped opened with opened | blames
        · exact .inl opened
        · exact .inr ⟨first, List.mem_cons_self, blames⟩
      · exact .inr ⟨lexeme, List.mem_cons_of_mem _ member, blames⟩

end Scan

/-- A fault other than the number of expressions is that of one of the lexemes. -/
theorem blames_of_single {limit index : Nat} {lexemes : List Lexeme} {fault : Malformed}
    (failed : single limit lexemes index = .error fault)
    (other : ∀ count position, fault ≠ .notSingle count position) :
    ∃ lexeme ∈ lexemes, fault.Blames lexeme := by
  have found := firstFault?_of_single_error failed
  unfold firstFault? at found
  cases ran : Scan.start.run limit (lexemes.drop index) with
  | error stopped =>
      rw [ran] at found
      cases found
      obtain ⟨lexeme, member, blames⟩ := Scan.blames_of_run ran
      exact ⟨lexeme, List.mem_of_mem_drop member, blames⟩
  | ok last =>
      rw [ran] at found
      simp only [Scan.endFault?] at found
      split at found
      · next innermost outer opened =>
          cases found
          have remains : innermost ∈ last.opened := by simp [opened]
          rcases Scan.opened_of_run ran remains with before | ⟨lexeme, member, blames⟩
          · cases before
          · exact ⟨lexeme, List.mem_of_mem_drop member, blames⟩
      · cases found
      · cases found
        exact absurd rfl (other _ _)
      · cases found
        exact absurd rfl (other _ _)

/-! ## The second expression -/

/-- What is read first of a sequence is an element at its front; the others are read behind it. -/
theorem sequence_cons_eq_ok {limit index stop position : Nat} {lexemes : List Lexeme} {expr : Expr}
    {others : List (Nat × Expr)}
    (read : sequence limit index lexemes = .ok (stop, (position, expr) :: others)) :
    ∃ first rest after next, lexemes = first :: rest ∧ first.start = position ∧
      element limit 0 first rest = .ok (expr, after) ∧
        sequence limit next after.val = .ok (stop, others) := by
  cases lexemes with
  | nil => rw [sequence] at read; cases read
  | cons first rest =>
      rw [sequence] at read
      split at read
      · cases read
      · next head =>
          split at read
          · cases read
          · next tail =>
              cases read
              exact ⟨first, rest, _, _, rfl, rfl, head, tail⟩

theorem not_closing_of_element {limit level : Nat} {first : Lexeme} {rest : List Lexeme}
    {expr : Expr} {after : Remainder (first :: rest)}
    (found : element limit level first rest = .ok (expr, after)) : first.token ≠ .closing := by
  intro closing
  rw [element] at found
  simp only [closing] at found
  cases found

/-- The lexemes before the second expression of a sequence spell the first one. -/
theorem second_of_sequence {limit index stop start position : Nat} {lexemes : List Lexeme}
    {expr second : Expr} {others : List (Nat × Expr)}
    (read : sequence limit index lexemes =
      .ok (stop, (start, expr) :: (position, second) :: others)) :
    ∃ left lexeme right, lexemes = left ++ lexeme :: right ∧ lexeme.start = position ∧
      lexeme.token ≠ .closing ∧ Spelling expr (left.map Lexeme.token) ∧ expr.depth ≤ limit := by
  obtain ⟨_, _, _, _, rfl, -, head, tail⟩ := sequence_cons_eq_ok read
  obtain ⟨lexeme, right, _, _, remaining, starts, next, -⟩ := sequence_cons_eq_ok tail
  obtain ⟨left, whole, spelling, shallow⟩ := element_sound head
  rw [remaining] at whole
  exact ⟨left, lexeme, right, whole, starts, not_closing_of_element next, spelling, shallow⟩

/-- Where lexemes are not a single expression, they are at least two of them, one after the other. -/
theorem second_of_single {limit index count position : Nat} {lexemes : List Lexeme}
    (failed : single limit lexemes index = .error (.notSingle count position))
    (nonempty : lexemes.drop index ≠ []) :
    2 ≤ count ∧ ∃ left lexeme right expr, lexemes.drop index = left ++ lexeme :: right ∧
      lexeme.start = position ∧ lexeme.token ≠ .closing ∧
        Spelling expr (left.map Lexeme.token) ∧ expr.depth ≤ limit := by
  unfold single at failed
  split at failed
  · next fault unread =>
      cases failed
      have stops := stops_of_sequence [] unread
      generalize ran : Scan.run limit ⟨[], []⟩ (lexemes.drop index) = outcome at stops
      cases stops with
      | lexeme =>
          obtain ⟨lexeme, -, blames⟩ := Scan.blames_of_run ran
          cases blames
  · cases failed
  · next read =>
      obtain ⟨-, spellings, -⟩ := sequence_sound read
      generalize none : (lexemes.drop index).map Lexeme.token = tokens at spellings
      cases spellings
      exact absurd (List.map_eq_nil_iff.mp none) nonempty
  · next first second others read =>
      cases failed
      obtain ⟨left, lexeme, right, whole, starts, other, spelling, shallow⟩ :=
        second_of_sequence read
      exact ⟨by simp, left, lexeme, right, first.2, whole, starts, other, spelling, shallow⟩

end Expr

namespace Malformed

/-- What stands at the position of a fault, between the parts of a text before it and from it on. -/
def PointsAt (calculator : Calculator) (before after : String) : Malformed → Prop
  | noToken => False
  | unreadable _ => False
  | unknownAtom word _ =>
      ∃ rest : String, after = word ++ rest ∧ (Token.atom word).Precedes rest.toList ∧
        ∀ last ∈ before.toList.getLast?, Token.isAtomCharacter last = false
  | unmatchedClosing _ => after.toList.head? = some ')'
  | unclosed _ => after.toList.head? = some '('
  | tooDeep _ _ => after.toList.head? = some '('
  | notSingle count _ =>
      2 ≤ count ∧ (∃ first, calculator.read before = .ok first) ∧
        Token.Apart before.toList after.toList ∧
          ∃ start ∈ after.toList.head?, Text.isSeparator start = false ∧ start ≠ ')'

/--
Where the fault of a text is. Only a text without tokens is at fault nowhere; any other text is cut in
two at the position of its fault, so that the culprit comes first in the second part and the caret of
a report goes below it.
-/
structure Located (calculator : Calculator) (text : String) (fault : Malformed) : Prop where
  nowhere_iff : fault.position? = none ↔ fault = .noToken
  somewhere : ∀ position, fault.position? = some position →
    position < text.utf8ByteSize ∧
      ∃ before after : String, text = before ++ after ∧ before.utf8ByteSize = position ∧
        fault.PointsAt calculator before after ∧
          CommandLine.caretLines text position =
            "  " ++ text ++ "\n  " ++ String.ofList (List.replicate before.length ' ') ++ "^\n"

/-- A text that is cut in front of the culprit shows where its fault is. -/
theorem Located.of_cut {calculator : Calculator} {text : String} {fault : Malformed}
    {before after : List Char} (whole : text.toList = before ++ after) (nonempty : after ≠ [])
    (placed : fault.position? = some (Text.size before))
    (points : fault.PointsAt calculator (String.ofList before) (String.ofList after)) :
    Located calculator text fault := by
  constructor
  · rw [placed]
    constructor
    · nofun
    · rintro rfl
      cases placed
  · intro position found
    obtain rfl : Text.size before = position := Option.some.inj (placed.symm.trans found)
    constructor
    · rw [Text.utf8ByteSize_eq_size, whole, Text.size_append]
      obtain ⟨start, rest, rfl⟩ := List.exists_cons_of_ne_nil nonempty
      have positive := start.utf8Size_pos
      rw [Text.size_cons]
      omega
    · refine ⟨String.ofList before, String.ofList after, ?_, Text.utf8ByteSize_ofList before,
        points, ?_⟩
      · apply String.toList_injective
        simpa using whole
      · rw [CommandLine.caretLines, whole, Text.column?_append, String.length_ofList]

/-- A lexeme to blame stands at the position of the fault. -/
theorem Located.of_blames {calculator : Calculator} {text : String} {fault : Malformed}
    {lexemes : List Lexeme} {lexeme : Lexeme} (division : Lexeme.Division 0 text.toList lexemes)
    (member : lexeme ∈ lexemes) (blames : fault.Blames lexeme) : Located calculator text fault := by
  obtain ⟨left, right, rfl⟩ := List.append_of_mem member
  obtain ⟨before, after, whole, placed, -, precedes, apart⟩ := division.split
  rw [Nat.zero_add] at placed
  have nonempty : lexeme.token.text.toList ++ after ≠ [] :=
    List.append_ne_nil_of_left_ne_nil precedes.text_ne_nil after
  refine .of_cut whole nonempty ?_ ?_
  · rw [← placed]
    cases blames <;> rfl
  · cases blames with
    | unknownAtom atom =>
        rw [atom] at precedes apart ⊢
        refine ⟨String.ofList after, ?_, ?_, ?_⟩
        · rw [String.ofList_append, Token.text, String.ofList_toList]
        · rwa [String.toList_ofList]
        · rw [String.toList_ofList]
          exact apart.not_isAtomCharacter precedes
    | unmatchedClosing closing => simp [PointsAt, closing, Token.text]
    | unclosed opening => simp [PointsAt, opening, Token.text]
    | tooDeep limit opening => simp [PointsAt, opening, Token.text]

/-- The second expression of a text stands at the position of a wrong number of expressions. -/
theorem Located.of_second {calculator : Calculator} {text : String} {lexemes : List Lexeme}
    {count position : Nat} (division : Lexeme.Division 0 text.toList lexemes)
    (nonempty : lexemes ≠ [])
    (failed : Expr.single calculator.settings.maxDepth lexemes 0 =
      .error (.notSingle count position)) :
    Located calculator text (.notSingle count position) := by
  obtain ⟨several, left, lexeme, right, first, rfl, rfl, other, spelling, shallow⟩ :=
    Expr.second_of_single failed nonempty
  obtain ⟨before, after, whole, placed, divided, precedes, apart⟩ := division.split
  rw [Nat.zero_add] at placed
  rw [placed]
  refine .of_cut whole (List.append_ne_nil_of_left_ne_nil precedes.text_ne_nil after) rfl ?_
  refine ⟨several, ⟨first, ?_⟩, ?_, ?_⟩
  · rw [← String.toList_ofList (l := before)] at divided
    exact Expr.Spelling.read_eq divided spelling shallow
  · simpa using apart
  · obtain ⟨start, starts, distinct⟩ := precedes.exists_start other
    refine ⟨start, ?_, distinct⟩
    rw [String.toList_ofList, List.head?_append, Option.mem_def.mp starts]
    rfl

/-- A calculator finds every text at fault where the fault of the text is. -/
theorem Located.of_read {calculator : Calculator} {text : String} {fault : Malformed}
    (failed : calculator.read text = .error fault) : Located calculator text fault := by
  obtain ⟨lexemes, division⟩ := Lexeme.exists_division 0 text.toList
  rcases Expr.single_of_read_error division failed with ⟨-, rfl⟩ | ⟨nonempty, single⟩
  · exact ⟨⟨fun _ => rfl, fun _ => rfl⟩, nofun⟩
  · by_cases several : ∃ count position, fault = .notSingle count position
    · obtain ⟨count, position, rfl⟩ := several
      exact .of_second division nonempty single
    · obtain ⟨lexeme, member, blames⟩ := Expr.blames_of_single single
        fun count position same => several ⟨count, position, same⟩
      exact .of_blames division member blames

end Malformed

namespace Calculator

/-- What a calculator does not read it does not evaluate either, for the same fault. -/
theorem read_of_evaluate {calculator : Calculator} {text : String} {fault : Malformed}
    (failed : calculator.evaluate text = .error (.reading fault)) :
    calculator.read text = .error fault := by
  unfold evaluate at failed
  split at failed
  · next unread =>
      cases failed
      exact unread
  · next expr read =>
      cases outcome : expr.eval <;> rw [outcome] at failed <;> cases failed

/--
A text that is not an expression is at fault at a character of it, and there stands what the fault
says: the unknown atom as a whole, the parenthesis to blame, or the second expression. Only a text of
no tokens is at fault nowhere, so a report puts a caret under every other fault, behind as many
columns as there are characters before it.
-/
theorem fault_located (calculator : Calculator) {text : String} {fault : Malformed}
    (failed : calculator.read text = .error fault ∨
      calculator.evaluate text = .error (.reading fault)) :
    Malformed.Located calculator text fault := by
  rcases failed with unread | failed
  · exact .of_read unread
  · exact .of_read (read_of_evaluate failed)

theorem fault_located_second :
    standard.read "()\u3000()" = .error (.notSingle 2 5) ∧
      Malformed.Located standard "()\u3000()" (.notSingle 2 5) := by
  have opening (rest : List Char) : Token.opening.Precedes rest := trivial
  have closing (rest : List Char) : Token.closing.Precedes rest := trivial
  have division : Lexeme.Division 0 "()\u3000()".toList
      [⟨.opening, 0, 1⟩, ⟨.closing, 1, 2⟩, ⟨.opening, 5, 6⟩, ⟨.closing, 6, 7⟩] :=
    .token (opening _) <| .token (closing _) <| .separator rfl <|
      .token (opening _) <| .token (closing _) <| .done 7
  have scanned : Expr.firstFault? standard.settings.maxDepth
      [⟨.opening, 0, 1⟩, ⟨.closing, 1, 2⟩, ⟨.opening, 5, 6⟩, ⟨.closing, 6, 7⟩] 0 =
        some (.notSingle 2 5) := by
    decide
  have failed : standard.read "()\u3000()" = .error (.notSingle 2 5) := by
    rw [read, Expr.read_eq division, if_neg (by simp), Expr.ofLexemes_eq_error_iff]
    exact Expr.single_error_of_firstFault? scanned
  exact ⟨failed, fault_located standard (.inl failed)⟩

end Calculator

end PrefixArith
