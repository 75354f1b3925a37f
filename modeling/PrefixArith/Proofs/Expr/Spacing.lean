import Mathlib.Data.List.Forall2
import PrefixArith.Calculator
import PrefixArith.Proofs.Expr.Culprit

/-!
# Texts that differ in their spacing

Two texts of the same tokens are read side by side. Wherever the separators have put the tokens, the
two scans open and close the same parentheses and start the same expressions, each at the position of
its token in its own text. They come to the same expression or to the same fault of the same token.
-/

namespace PrefixArith

/-- Outcomes that both fail or both succeed, with related faults or related results. -/
inductive Together {ε α : Type} (faults : ε → ε → Prop) (results : α → α → Prop) :
    Except ε α → Except ε α → Prop where
  | error {left right : ε} (related : faults left right) :
      Together faults results (.error left) (.error right)
  | ok {left right : α} (related : results left right) :
      Together faults results (.ok left) (.ok right)

/-- Faults that say the same about positions that correspond. -/
inductive Malformed.Alike (corresponds : Nat → Nat → Prop) : Malformed → Malformed → Prop where
  | noToken : Alike corresponds .noToken .noToken
  | unknownAtom (text : String) {left right : Nat} (placed : corresponds left right) :
      Alike corresponds (.unknownAtom text left) (.unknownAtom text right)
  | unmatchedClosing {left right : Nat} (placed : corresponds left right) :
      Alike corresponds (.unmatchedClosing left) (.unmatchedClosing right)
  | unclosed {left right : Nat} (placed : corresponds left right) :
      Alike corresponds (.unclosed left) (.unclosed right)
  | notSingle (count : Nat) {left right : Nat} (placed : corresponds left right) :
      Alike corresponds (.notSingle count left) (.notSingle count right)
  | tooDeep (limit : Nat) {left right : Nat} (placed : corresponds left right) :
      Alike corresponds (.tooDeep limit left) (.tooDeep limit right)

/-- Failures that are the same but for positions that correspond. -/
inductive Failure.Alike (corresponds : Nat → Nat → Prop) : Failure → Failure → Prop where
  | reading {left right : Malformed} (alike : left.Alike corresponds right) :
      Alike corresponds (.reading left) (.reading right)
  | evaluation (fault : Undefined) : Alike corresponds (.evaluation fault) (.evaluation fault)

variable {corresponds : Nat → Nat → Prop}

/-! ## Tokens told by their texts -/

namespace Token

/-- A token that cannot be taken for a parenthesis unless it is one. -/
def IsProper (token : Token) : Prop :=
  ∀ word, token = atom word → '(' ∉ word.toList ∧ ')' ∉ word.toList

theorem IsProper.text_ne {word : String} (proper : (atom word).IsProper) :
    word ≠ "(" ∧ word ≠ ")" := by
  obtain ⟨noOpening, noClosing⟩ := proper word rfl
  constructor
  · rintro rfl
    exact noOpening (by simp)
  · rintro rfl
    exact noClosing (by simp)

/-- Tokens of the same text are the same. -/
theorem IsProper.eq_of_text_eq {left right : Token} (leftProper : left.IsProper)
    (rightProper : right.IsProper) (same : left.text = right.text) : left = right := by
  cases left with
  | opening =>
      cases right with
      | opening => rfl
      | closing => exact absurd same (by decide)
      | atom word => exact absurd same.symm rightProper.text_ne.1
  | closing =>
      cases right with
      | opening => exact absurd same (by decide)
      | closing => rfl
      | atom word => exact absurd same.symm rightProper.text_ne.2
  | atom word =>
      cases right with
      | opening => exact absurd same leftProper.text_ne.1
      | closing => exact absurd same leftProper.text_ne.2
      | atom other => exact congrArg atom same

end Token

namespace Lexeme

/-- Lexemes of the same token that start at positions that correspond. -/
structure Alike (corresponds : Nat → Nat → Prop) (left right : Lexeme) : Prop where
  token_eq : left.token = right.token
  starts : corresponds left.start right.start

/-- Positions at which lexemes of the same index start. -/
def Counterparts (lefts rights : List Lexeme) (left right : Nat) : Prop :=
  ∃ (index : Nat) (first second : Lexeme), lefts[index]? = some first ∧
    rights[index]? = some second ∧ first.start = left ∧ second.start = right

theorem Division.isProper {position : Nat} {text : List Char} {lexemes : List Lexeme}
    (division : Division position text lexemes) {lexeme : Lexeme} (member : lexeme ∈ lexemes) :
    lexeme.token.IsProper := by
  intro word atom
  have characters := division.atoms lexeme member word atom
  exact ⟨fun opening => (characters _ opening).2.1 rfl, fun closing => (characters _ closing).2.2 rfl⟩

/-- Lexemes whose tokens have the same texts are alike one by one. -/
theorem forall₂_alike {left right : List Char} {lefts rights : List Lexeme}
    (leftDivision : Division 0 left lefts) (rightDivision : Division 0 right rights)
    (same : lefts.map (·.token.text) = rights.map (·.token.text)) :
    List.Forall₂ (Alike (Counterparts lefts rights)) lefts rights := by
  have lengths : lefts.length = rights.length := by simpa using congrArg List.length same
  refine List.forall₂_iff_get.mpr ⟨lengths, fun index inLefts inRights => ?_⟩
  have texts : lefts[index].token.text = rights[index].token.text := by
    simpa [inLefts, inRights] using congrArg (·[index]?) same
  constructor
  · exact (leftDivision.isProper (List.getElem_mem inLefts)).eq_of_text_eq
      (rightDivision.isProper (List.getElem_mem inRights)) texts
  · exact ⟨index, _, _, List.getElem?_eq_getElem inLefts, List.getElem?_eq_getElem inRights,
      rfl, rfl⟩

theorem map_token_eq {lefts rights : List Lexeme}
    (alike : List.Forall₂ (Alike corresponds) lefts rights) :
    lefts.map Lexeme.token = rights.map Lexeme.token := by
  induction alike with
  | nil => rfl
  | cons head tail ih => rw [List.map_cons, List.map_cons, head.token_eq, ih]

end Lexeme

namespace Expr

/-! ## Scans side by side -/

namespace Scan

/-- Scans that keep positions that correspond, one by one. -/
structure Alike (corresponds : Nat → Nat → Prop) (left right : Scan) : Prop where
  opened : List.Forall₂ corresponds left.opened right.opened
  tops : List.Forall₂ corresponds left.tops right.tops

variable {left right : Scan}

theorem Alike.begin (scans : Alike corresponds left right) {first second : Nat}
    (placed : corresponds first second) : Alike corresponds (left.begin first) (right.begin second) := by
  obtain ⟨leftOpened, leftTops⟩ := left
  obtain ⟨rightOpened, rightTops⟩ := right
  obtain ⟨opened, tops⟩ := scans
  cases opened with
  | nil => exact ⟨.nil, List.rel_append tops (.cons placed .nil)⟩
  | cons innermost outer => exact ⟨.cons innermost outer, tops⟩

/-- One more lexeme, wherever it stands, does the same to scans that are alike. -/
theorem Alike.step (scans : Alike corresponds left right) {first second : Lexeme}
    (lexemes : first.Alike corresponds second) (limit : Nat) :
    Together (Malformed.Alike corresponds) (Alike corresponds) (left.step limit first)
      (right.step limit second) := by
  obtain ⟨token_eq, starts⟩ := lexemes
  have depths := scans.opened.length_eq
  cases token : second.token with
  | opening =>
      rw [token] at token_eq
      by_cases full : limit ≤ left.opened.length
      · rw [step_opening_full token_eq full, step_opening_full token (depths ▸ full)]
        exact .error (.tooDeep limit starts)
      · rw [step_opening token_eq (by omega), step_opening token (by omega)]
        exact .ok ⟨.cons starts scans.opened, (scans.begin starts).tops⟩
  | closing =>
      rw [token] at token_eq
      obtain ⟨leftOpened, leftTops⟩ := left
      obtain ⟨rightOpened, rightTops⟩ := right
      obtain ⟨opened, tops⟩ := scans
      cases opened with
      | nil =>
          rw [step_closing_unmatched token_eq rfl, step_closing_unmatched token rfl]
          exact .error (.unmatchedClosing starts)
      | cons innermost outer =>
          rw [step_closing token_eq, step_closing token]
          exact .ok ⟨outer, tops⟩
  | atom text =>
      rw [token] at token_eq
      cases stands : ofAtom text first.start with
      | ok leaf =>
          rw [step_atom token_eq stands, step_atom token ((ofAtom_eq_ok stands).2 _)]
          exact .ok (scans.begin starts)
      | error fault =>
          cases other : ofAtom text second.start with
          | ok leaf =>
              rw [(ofAtom_eq_ok other).2] at stands
              cases stands
          | error otherFault =>
              rw [step_atom_unknown token_eq stands, step_atom_unknown token other]
              exact .error (.unknownAtom text starts)

/-- Lexemes that are alike take scans that are alike to the same end. -/
theorem Alike.run (scans : Alike corresponds left right) {lefts rights : List Lexeme}
    (lexemes : List.Forall₂ (Lexeme.Alike corresponds) lefts rights) (limit : Nat) :
    Together (Malformed.Alike corresponds) (Alike corresponds) (left.run limit lefts)
      (right.run limit rights) := by
  induction lexemes generalizing left right with
  | nil => exact .ok scans
  | @cons first second lefts rights head tail ih =>
      rw [run_cons, run_cons]
      have stepped := scans.step head limit
      generalize left.step limit first = leftNext at stepped
      generalize right.step limit second = rightNext at stepped
      cases stepped with
      | error related => exact .error related
      | ok related => exact ih related

end Scan

/-- Scans that are alike end with faults that are alike, unless there is no expression at all. -/
theorem Scan.Alike.endFault? {left right : Scan} (scans : Scan.Alike corresponds left right)
    {fault : Malformed} {position : Nat} (found : left.endFault? position = some fault)
    (some : ∀ other, fault ≠ .notSingle 0 other) (other : Nat) :
    ∃ second, right.endFault? other = .some second ∧ fault.Alike corresponds second := by
  obtain ⟨leftOpened, leftTops⟩ := left
  obtain ⟨rightOpened, rightTops⟩ := right
  obtain ⟨opened, tops⟩ := scans
  cases opened with
  | cons innermost outer =>
      cases found
      exact ⟨_, rfl, .unclosed innermost⟩
  | nil =>
      cases tops with
      | nil =>
          cases found
          exact absurd rfl (some position)
      | cons first others =>
          cases others with
          | nil => cases found
          | cons second others =>
              cases found
              refine ⟨_, rfl, ?_⟩
              rw [List.length_cons, List.length_cons, others.length_eq]
              exact .notSingle _ second

/-- Where lexemes that are alike have a first fault, their first faults are alike. -/
theorem exists_firstFault?_alike {limit : Nat} {lefts rights : List Lexeme}
    (lexemes : List.Forall₂ (Lexeme.Alike corresponds) lefts rights) {fault : Malformed}
    (found : firstFault? limit lefts 0 = some fault)
    (some : ∀ position, fault ≠ .notSingle 0 position) :
    ∃ other, firstFault? limit rights 0 = .some other ∧ fault.Alike corresponds other := by
  have start : Scan.Alike corresponds Scan.start Scan.start := ⟨.nil, .nil⟩
  have runs := start.run lexemes limit
  unfold firstFault? at found ⊢
  rw [List.drop_zero] at found ⊢
  generalize Scan.start.run limit lefts = leftOutcome at runs found
  generalize Scan.start.run limit rights = rightOutcome at runs
  cases runs with
  | error related =>
      cases found
      exact ⟨_, rfl, related⟩
  | ok related => exact related.endFault? found some _

/-! ## Texts side by side -/

section Texts

variable {left right : String} {lefts rights : List Lexeme} {limit : Nat}
  (leftDivision : Lexeme.Division 0 left.toList lefts)
  (rightDivision : Lexeme.Division 0 right.toList rights)
  (lexemes : List.Forall₂ (Lexeme.Alike corresponds) lefts rights)

include leftDivision rightDivision lexemes

/-- A text is at fault where a text with lexemes that are alike is. -/
theorem exists_fault_alike {fault : Malformed} (failed : read limit left = .error fault) :
    ∃ other, read limit right = .error other ∧ fault.Alike corresponds other := by
  rcases single_of_read_error leftDivision failed with ⟨rfl, rfl⟩ | ⟨nonempty, single⟩
  · cases lexemes
    exact ⟨.noToken, by rw [read_eq rightDivision, if_pos rfl], .noToken⟩
  · have several : ∀ position, fault ≠ .notSingle 0 position := by
      rintro position rfl
      have counted := (second_of_single single nonempty).1
      omega
    obtain ⟨other, found, alike⟩ :=
      exists_firstFault?_alike lexemes (firstFault?_of_single_error single) several
    have rightNonempty : rights ≠ [] := by
      rintro rfl
      cases lexemes
      exact nonempty rfl
    refine ⟨other, ?_, alike⟩
    rw [read_eq rightDivision, if_neg rightNonempty, ofLexemes_eq_error_iff]
    exact single_error_of_firstFault? found

/-- Texts with lexemes that are alike are the same expression or at fault alike. -/
theorem read_together (limit : Nat) :
    Together (Malformed.Alike corresponds) Eq (read limit left) (read limit right) := by
  cases outcome : read limit left with
  | ok expr =>
      obtain ⟨shallow, spelling⟩ := spelling_of_read leftDivision outcome
      rw [Lexeme.map_token_eq lexemes] at spelling
      rw [spelling.read_eq rightDivision shallow]
      exact .ok rfl
  | error fault =>
      obtain ⟨other, failed, alike⟩ :=
        exists_fault_alike leftDivision rightDivision lexemes outcome
      rw [failed]
      exact .error alike

end Texts

end Expr

namespace Calculator

theorem together_mapError (result : Except Undefined Value) :
    Together (Failure.Alike corresponds) Eq (result.mapError .evaluation)
      (result.mapError .evaluation) := by
  cases result with
  | error fault => exact .error (.evaluation fault)
  | ok value => exact .ok rfl

/--
Spacing is irrelevant. Every text has its lexemes, and two texts whose lexemes have the same words in
the same order evaluate to the same value, to the same failure of evaluation, or to failures of
reading that say the same of lexemes with the same index, each at the start of the lexeme in its text.
-/
theorem evaluate_respaced (calculator : Calculator) (left right : String) :
    ∃ lefts rights, Lexeme.readFrom 0 left.toList = .ok lefts ∧
      Lexeme.readFrom 0 right.toList = .ok rights ∧
      (lefts.map (·.token.text) = rights.map (·.token.text) →
        Together (Failure.Alike (Lexeme.Counterparts lefts rights)) Eq
          (calculator.evaluate left) (calculator.evaluate right)) := by
  obtain ⟨lefts, leftDivision⟩ := Lexeme.exists_division 0 left.toList
  obtain ⟨rights, rightDivision⟩ := Lexeme.exists_division 0 right.toList
  refine ⟨lefts, rights, leftDivision.readFrom_eq, rightDivision.readFrom_eq, fun same => ?_⟩
  have lexemes := Lexeme.forall₂_alike leftDivision rightDivision same
  have reads := Expr.read_together leftDivision rightDivision lexemes calculator.settings.maxDepth
  unfold evaluate read
  generalize Expr.read calculator.settings.maxDepth left = leftOutcome at reads
  generalize Expr.read calculator.settings.maxDepth right = rightOutcome at reads
  cases reads with
  | error alike => exact .error (.reading alike)
  | @ok expr _ same =>
      subst same
      exact together_mapError expr.eval

theorem evaluate_respaced_unknown :
    ∃ lefts rights, Lexeme.readFrom 0 "(+ foo)".toList = .ok lefts ∧
      Lexeme.readFrom 0 "\u3000( +\u3000foo)".toList = .ok rights ∧
      lefts.map (·.token.text) = rights.map (·.token.text) ∧
      Together (Failure.Alike (Lexeme.Counterparts lefts rights)) Eq
        (standard.evaluate "(+ foo)") (standard.evaluate "\u3000( +\u3000foo)") := by
  obtain ⟨lefts, rights, leftRead, rightRead, together⟩ :=
    evaluate_respaced standard "(+ foo)" "\u3000( +\u3000foo)"
  have crowded : Lexeme.readFrom 0 "(+ foo)".toList =
      .ok [⟨.opening, 0, 1⟩, ⟨.atom "+", 1, 2⟩, ⟨.atom "foo", 3, 6⟩, ⟨.closing, 6, 7⟩] := by
    decide +kernel
  have spread : Lexeme.readFrom 0 "\u3000( +\u3000foo)".toList =
      .ok [⟨.opening, 3, 4⟩, ⟨.atom "+", 5, 6⟩, ⟨.atom "foo", 9, 12⟩, ⟨.closing, 12, 13⟩] := by
    decide +kernel
  have same : lefts.map (·.token.text) = rights.map (·.token.text) := by
    rw [crowded] at leftRead
    rw [spread] at rightRead
    cases leftRead
    cases rightRead
    rfl
  exact ⟨lefts, rights, leftRead, rightRead, same, together same⟩

end Calculator

end PrefixArith
