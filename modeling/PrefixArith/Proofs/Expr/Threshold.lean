import Mathlib.Data.Nat.SuccPred
import PrefixArith.Calculator
import PrefixArith.Proofs.Expr.Scan
import PrefixArith.Proofs.Expr.Spelling

/-!
# The nesting limit as a threshold

The parentheses of a text raise and lower a level, up to the first place where something else is at
fault. A limit below the highest level reached is exceeded at the first parenthesis above it; all
other limits make no difference to each other.
-/

namespace PrefixArith

/-- By how much a token raises the level of parentheses. -/
def Token.rise : Token → Int
  | opening => 1
  | closing => -1
  | atom _ => 0

namespace Lexeme

/-- The level of parentheses behind some lexemes. -/
def level : List Lexeme → Int
  | [] => 0
  | first :: rest => first.token.rise + level rest

@[simp]
theorem level_nil : level [] = 0 := rfl

@[simp]
theorem level_cons (first : Lexeme) (rest : List Lexeme) :
    level (first :: rest) = first.token.rise + level rest := rfl

@[simp]
theorem level_append (left right : List Lexeme) :
    level (left ++ right) = level left + level right := by
  induction left with
  | nil => exact (Int.zero_add _).symm
  | cons first left ih => rw [List.cons_append, level_cons, level_cons, ih, Int.add_assoc]

theorem level_le_length (lexemes : List Lexeme) : level lexemes ≤ lexemes.length := by
  induction lexemes with
  | nil => exact Int.le_refl 0
  | cons first rest ih =>
      have bound : first.token.rise ≤ 1 := by cases first.token <;> simp [Token.rise]
      rw [level_cons, List.length_cons]
      omega

/-- An atom stands for a number or an operator; other lexemes are known anyway. -/
def IsKnown (lexeme : Lexeme) : Prop :=
  ∀ text, lexeme.token = .atom text → ∃ leaf, Expr.ofAtom text lexeme.start = .ok leaf

theorem isKnown_of_not_atom {lexeme : Lexeme} (other : ∀ text, lexeme.token ≠ .atom text) :
    lexeme.IsKnown :=
  fun text atom => absurd atom (other text)

/-- Lexemes in which only a limit can find a fault. -/
structure Sound (lexemes : List Lexeme) : Prop where
  /-- No parenthesis closes more than are open. -/
  level_nonneg : ∀ front, front <+: lexemes → 0 ≤ level front
  isKnown : ∀ lexeme ∈ lexemes, lexeme.IsKnown

theorem Sound.of_prefix {front lexemes : List Lexeme} (sound : Sound lexemes)
    (isFront : front <+: lexemes) : Sound front where
  level_nonneg := fun inner isInner => sound.level_nonneg inner (isInner.trans isFront)
  isKnown := fun lexeme member => sound.isKnown lexeme (isFront.subset member)

/-- An opening parenthesis is never at fault but for a limit. -/
theorem Sound.concat_opening {lexemes : List Lexeme} (sound : Sound lexemes) {lexeme : Lexeme}
    (opening : lexeme.token = .opening) : Sound (lexemes ++ [lexeme]) := by
  constructor
  · intro front isFront
    rcases List.prefix_concat_iff.mp isFront with rfl | isFront
    · have nonneg := sound.level_nonneg lexemes (List.prefix_refl lexemes)
      simp [opening, Token.rise]
      omega
    · exact sound.level_nonneg front isFront
  · intro other member
    rcases List.mem_append.mp member with member | member
    · exact sound.isKnown other member
    · obtain rfl := List.mem_singleton.mp member
      exact isKnown_of_not_atom (by simp [opening])

/-- The levels that lexemes reach before something else than the level is at fault. -/
def heights (lexemes : List Lexeme) : Set Nat :=
  {height | ∃ front, front <+: lexemes ∧ Sound front ∧ level front = height}

/-- A parenthesis is the first one among lexemes that opens a level. -/
def IsFirstAt (lexemes : List Lexeme) (height : Nat) (lexeme : Lexeme) : Prop :=
  ∃ before after, lexemes = before ++ lexeme :: after ∧ lexeme.token = .opening ∧
    level before + 1 = height ∧ ∀ front, front <+: before → level front < height

theorem exists_isGreatest_heights (lexemes : List Lexeme) :
    ∃ depth, IsGreatest (heights lexemes) depth := by
  apply BddAbove.exists_isGreatest_of_nonempty
  · refine ⟨lexemes.length, ?_⟩
    rintro height ⟨front, isFront, -, isLevel⟩
    have bound := level_le_length front
    have shorter := isFront.length_le
    omega
  · refine ⟨0, [], List.nil_prefix, ⟨?_, nofun⟩, rfl⟩
    intro front isFront
    rw [List.prefix_nil.mp isFront, level_nil]

end Lexeme

namespace Expr

namespace Scan

variable {limit : Nat} {scan : Scan}

/-- A scan comes through lexemes only one level at a time, within the limit. -/
theorem level_of_step {lexeme : Lexeme} {next : Scan} (stepped : scan.step limit lexeme = .ok next)
    (room : scan.opened.length ≤ limit) :
    next.opened.length = scan.opened.length + lexeme.token.rise ∧ next.opened.length ≤ limit ∧
      lexeme.IsKnown := by
  rcases step_eq_ok stepped with
    ⟨opening, less, rfl⟩ | ⟨innermost, outer, closing, opened, rfl⟩ | ⟨word, leaf, atom, stands, rfl⟩
  · exact ⟨by simp [opening, Token.rise], less, Lexeme.isKnown_of_not_atom (by simp [opening])⟩
  · rw [opened, List.length_cons] at room ⊢
    refine ⟨?_, Nat.le_of_succ_le room, Lexeme.isKnown_of_not_atom (by simp [closing])⟩
    rw [closing, Token.rise]
    push_cast
    exact (Int.add_neg_cancel_right _ 1).symm
  · rw [opened_begin]
    refine ⟨by simp [atom, Token.rise], room, ?_⟩
    intro text isAtom
    rw [atom] at isAtom
    cases isAtom
    exact ⟨leaf, stands⟩

/--
A scan that comes through lexemes has as many parentheses open as their level says, and never more
than the limit or less than none.
-/
theorem level_of_run {lexemes : List Lexeme} {last : Scan}
    (ran : scan.run limit lexemes = .ok last) (room : scan.opened.length ≤ limit) :
    last.opened.length = scan.opened.length + Lexeme.level lexemes ∧
      (∀ front, front <+: lexemes → 0 ≤ scan.opened.length + Lexeme.level front ∧
        scan.opened.length + Lexeme.level front ≤ limit) ∧
      ∀ lexeme ∈ lexemes, lexeme.IsKnown := by
  induction lexemes generalizing scan with
  | nil =>
      cases ran
      refine ⟨by simp, ?_, nofun⟩
      intro front isFront
      rw [List.prefix_nil.mp isFront, Lexeme.level_nil]
      omega
  | cons first rest ih =>
      obtain ⟨next, stepped, ran⟩ := run_cons_eq_ok ran
      obtain ⟨rises, less, known⟩ := level_of_step stepped room
      obtain ⟨total, between, knownRest⟩ := ih ran less
      refine ⟨?_, ?_, List.forall_mem_cons.mpr ⟨known, knownRest⟩⟩
      · rw [total, Lexeme.level_cons]
        omega
      · intro front isFront
        rcases List.prefix_cons_iff.mp isFront with rfl | ⟨inner, rfl, isInner⟩
        · rw [Lexeme.level_nil]
          omega
        · have bounds := between inner isInner
          rw [Lexeme.level_cons]
          omega

/-- A scan that comes through lexemes from the start finds them sound and within the limit. -/
theorem sound_of_run {lexemes : List Lexeme} {last : Scan}
    (ran : start.run limit lexemes = .ok last) :
    Lexeme.Sound lexemes ∧ last.opened.length = Lexeme.level lexemes ∧
      ∀ front, front <+: lexemes → Lexeme.level front ≤ limit := by
  obtain ⟨total, between, known⟩ := level_of_run ran (Nat.zero_le limit)
  have none : (start.opened.length : Int) = 0 := rfl
  refine ⟨⟨fun front isFront => ?_, known⟩, by omega, fun front isFront => ?_⟩
  · have bounds := between front isFront
    omega
  · have bounds := between front isFront
    omega

theorem step_of_le {higher : Nat} {lexeme : Lexeme} (le : limit ≤ higher)
    (shallow : ∀ position, scan.step limit lexeme ≠ .error (.tooDeep limit position)) :
    scan.step higher lexeme = scan.step limit lexeme := by
  unfold step at shallow ⊢
  split
  · next opening =>
      simp only [opening] at shallow
      by_cases full : limit < scan.opened.length + 1
      · rw [if_pos full] at shallow
        exact absurd rfl (shallow lexeme.start)
      · rw [if_neg full, if_neg (by omega)]
  · rfl
  · rfl

/-- A higher limit changes nothing for a scan that the limit does not stop. -/
theorem run_of_le {higher : Nat} {lexemes : List Lexeme} (le : limit ≤ higher)
    (shallow : ∀ position, scan.run limit lexemes ≠ .error (.tooDeep limit position)) :
    scan.run higher lexemes = scan.run limit lexemes := by
  induction lexemes generalizing scan with
  | nil => rfl
  | cons first rest ih =>
      rw [run_cons] at shallow
      rw [run_cons, run_cons, step_of_le le]
      · cases stepped : scan.step limit first with
        | error fault => rfl
        | ok next =>
            rw [stepped] at shallow
            exact ih shallow
      · intro position stopped
        rw [stopped] at shallow
        exact absurd rfl (shallow position)

variable {lexemes : List Lexeme} {depth : Nat}

/-- A limit that is at least the highest level stops no scan. -/
theorem not_tooDeep_of_le (highest : IsGreatest (Lexeme.heights lexemes) depth)
    (le : depth ≤ limit) (bound position : Nat) :
    start.run limit lexemes ≠ .error (.tooDeep bound position) := by
  intro stopped
  obtain ⟨before, lexeme, after, next, rfl, ran, stops⟩ := exists_step_of_run_error stopped
  obtain ⟨sound, opened, -⟩ := sound_of_run ran
  rcases step_eq_error stops with ⟨opening, full, -⟩ | ⟨-, -, other⟩ | ⟨word, -, -, other⟩
  · have reached : next.opened.length + 1 ∈ Lexeme.heights (before ++ lexeme :: after) := by
      refine ⟨before ++ [lexeme], ⟨after, by simp⟩, sound.concat_opening opening, ?_⟩
      rw [Lexeme.level_append, ← opened]
      simp [opening, Token.rise]
    have bounded := highest.2 reached
    omega
  · cases other
  · cases other

/-- A limit below the highest level stops the scan at the first parenthesis above the limit. -/
theorem tooDeep_of_lt (highest : IsGreatest (Lexeme.heights lexemes) depth) (lt : limit < depth) :
    ∃ opening, Lexeme.IsFirstAt lexemes (limit + 1) opening ∧
      start.run limit lexemes = .error (.tooDeep limit opening.start) := by
  obtain ⟨peak, isFront, soundPeak, isDepth⟩ := highest.1
  cases ran : start.run limit lexemes with
  | ok last =>
      obtain ⟨-, -, within⟩ := sound_of_run ran
      have bounded := within peak isFront
      omega
  | error fault =>
      obtain ⟨before, lexeme, after, next, rfl, ranBefore, stops⟩ := exists_step_of_run_error ran
      obtain ⟨sound, opened, within⟩ := sound_of_run ranBefore
      -- The peak is above the limit, so it lies behind the lexeme at fault and vouches for it.
      have behind : before ++ [lexeme] <+: peak := by
        have isBoth : before ++ [lexeme] <+: before ++ lexeme :: after := ⟨after, by simp⟩
        rcases List.prefix_or_prefix_of_prefix isBoth isFront with behind | isFront
        · exact behind
        · rcases List.prefix_concat_iff.mp isFront with rfl | isFront
          · exact List.prefix_refl _
          · have bounded := within peak isFront
            omega
      have soundBoth := soundPeak.of_prefix behind
      have nonneg := soundBoth.level_nonneg _ (List.prefix_refl _)
      have bounded := within before (List.prefix_refl before)
      rcases step_eq_error stops with
        ⟨opening, full, rfl⟩ | ⟨closing, none, -⟩ | ⟨word, atom, unknown, -⟩
      · refine ⟨lexeme, ⟨before, after, rfl, opening, ?_, ?_⟩, rfl⟩
        · omega
        · intro front isFront
          have bounded := within front isFront
          omega
      · rw [none, List.length_nil] at opened
        rw [Lexeme.level_append, ← opened, Lexeme.level_cons, closing] at nonneg
        simp [Token.rise] at nonneg
      · obtain ⟨leaf, stands⟩ := soundBoth.isKnown lexeme (by simp) word atom
        exact absurd stands (unknown leaf)

end Scan

/-! ## Texts under a limit -/

variable {text : String} {lexemes : List Lexeme} {limit depth : Nat}

/-- A higher limit changes nothing for lexemes that are not too deep for the limit. -/
theorem single_of_le {higher index : Nat} (le : limit ≤ higher)
    (shallow : ∀ position,
      Scan.start.run limit (lexemes.drop index) ≠ .error (.tooDeep limit position)) :
    single higher lexemes index = single limit lexemes index := by
  cases outcome : single limit lexemes index with
  | ok found =>
      obtain ⟨stop, expr⟩ := found
      obtain ⟨inside, rfl, less, spelling⟩ := single_sound outcome
      exact spelling.single_eq inside (less.trans le)
  | error fault =>
      have scanned := firstFault?_of_single_error outcome
      apply single_error_of_firstFault?
      unfold firstFault? at scanned ⊢
      rwa [Scan.run_of_le le shallow]

/-- All limits from the highest level on read the same. -/
theorem read_of_le (division : Lexeme.Division 0 text.toList lexemes)
    (highest : IsGreatest (Lexeme.heights lexemes) depth) (le : depth ≤ limit) :
    read limit text = read depth text := by
  rw [read_eq division, read_eq division, ofLexemes, ofLexemes, single_of_le le]
  exact Scan.not_tooDeep_of_le highest (Nat.le_refl depth) depth

theorem read_ne_tooDeep (division : Lexeme.Division 0 text.toList lexemes)
    (highest : IsGreatest (Lexeme.heights lexemes) depth) (bound position : Nat) :
    read depth text ≠ .error (.tooDeep bound position) := by
  intro failed
  rcases single_of_read_error division failed with ⟨-, impossible⟩ | ⟨-, single⟩
  · cases impossible
  · have scanned := firstFault?_of_single_error single
    unfold firstFault? at scanned
    split at scanned
    · next stopped =>
        cases scanned
        exact Scan.not_tooDeep_of_le highest (Nat.le_refl depth) bound position stopped
    · next last ran =>
        unfold Scan.endFault? at scanned
        split at scanned <;> cases scanned

/-- A limit below the highest level is exceeded at the first parenthesis above it. -/
theorem read_of_lt (division : Lexeme.Division 0 text.toList lexemes)
    (highest : IsGreatest (Lexeme.heights lexemes) depth) (lt : limit < depth) :
    ∃ opening, Lexeme.IsFirstAt lexemes (limit + 1) opening ∧
      read limit text = .error (.tooDeep limit opening.start) := by
  obtain ⟨opening, isFirst, stopped⟩ := Scan.tooDeep_of_lt highest lt
  have nonempty : lexemes ≠ [] := by
    rintro rfl
    cases stopped
  have failed : single limit lexemes 0 = .error (.tooDeep limit opening.start) := by
    apply single_error_of_firstFault?
    rw [firstFault?, List.drop_zero, stopped]
  refine ⟨opening, isFirst, ?_⟩
  rwa [read_eq division, if_neg nonempty, ofLexemes_eq_error_iff]

/-- What is read from a text nests exactly as deep as the parentheses of the text. -/
theorem depth_of_read (division : Lexeme.Division 0 text.toList lexemes)
    (highest : IsGreatest (Lexeme.heights lexemes) depth) {expr : Expr}
    (found : read depth text = .ok expr) : expr.depth = depth := by
  obtain ⟨shallow, spelling⟩ := spelling_of_read division found
  by_contra other
  obtain ⟨opening, -, failed⟩ := read_of_lt division highest (Nat.lt_of_le_of_ne shallow other)
  rw [Spelling.read_eq division spelling (Nat.le_refl _)] at failed
  cases failed

end Expr

/--
The nesting limit is a threshold: every text reaches a highest level of parentheses before something
else in it is at fault. All calculators that allow this level read the text in one and the same way,
as an expression of exactly this depth or with a fault that is no matter of depth. All others fail for
the depth, at the first parenthesis that opens a level more than they allow.
-/
theorem Calculator.read_threshold (text : String) :
    ∃ lexemes depth, Lexeme.readFrom 0 text.toList = .ok lexemes ∧
      IsGreatest (Lexeme.heights lexemes) depth ∧
      (∃ outcome : Except Malformed Expr,
        (∀ limit position, outcome ≠ .error (.tooDeep limit position)) ∧
        (∀ expr, outcome = .ok expr → expr.depth = depth) ∧
        ∀ calculator : Calculator, depth ≤ calculator.settings.maxDepth →
          calculator.read text = outcome) ∧
      ∀ calculator : Calculator, calculator.settings.maxDepth < depth →
        ∃ opening, Lexeme.IsFirstAt lexemes (calculator.settings.maxDepth + 1) opening ∧
          Text.Holds text opening.start opening.stop "(" ∧
          calculator.read text = .error (.tooDeep calculator.settings.maxDepth opening.start) := by
  obtain ⟨lexemes, division⟩ := Lexeme.exists_division 0 text.toList
  obtain ⟨depth, highest⟩ := Lexeme.exists_isGreatest_heights lexemes
  refine ⟨lexemes, depth, division.readFrom_eq, highest, ⟨Expr.read depth text,
    Expr.read_ne_tooDeep division highest, fun expr => Expr.depth_of_read division highest,
    fun calculator => Expr.read_of_le division highest⟩, ?_⟩
  intro calculator lt
  obtain ⟨opening, isFirst, failed⟩ := Expr.read_of_lt division highest lt
  refine ⟨opening, isFirst, ?_, failed⟩
  obtain ⟨before, after, rfl, isOpening, -⟩ := isFirst
  have holds := division.holds [] rfl rfl opening (by simp)
  rwa [isOpening] at holds

end PrefixArith
