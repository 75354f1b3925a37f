import PrefixArith.Expr.Reading

/-!
# Faults found by a flat scan

A scan goes over lexemes from left to right and keeps nothing but where the open parentheses are and
where the expressions at the top start. The recursive reader of expressions stops at the same fault as
the scan: it holds its open parentheses in nested calls, the scan holds them in a list.
-/

namespace PrefixArith

namespace Expr

/-- What a scan keeps of the lexemes behind it. -/
structure Scan where
  /-- The starts of the open parentheses, the innermost first. -/
  opened : List Nat
  /-- The starts of the expressions at the top, in order. -/
  tops : List Nat

namespace Scan

/-- The scan of no lexeme. -/
def start : Scan := ⟨[], []⟩

/-- An expression starts; it is at the top if no parenthesis is open. -/
def begin (scan : Scan) (position : Nat) : Scan :=
  match scan.opened with
  | [] => ⟨[], scan.tops ++ [position]⟩
  | _ :: _ => scan

/-- The scan of one more lexeme, unless the lexeme is at fault. -/
def step (limit : Nat) (scan : Scan) (lexeme : Lexeme) : Except Malformed Scan :=
  match lexeme.token with
  | .opening =>
      if limit < scan.opened.length + 1 then .error (.tooDeep limit lexeme.start)
      else .ok ⟨lexeme.start :: scan.opened, (scan.begin lexeme.start).tops⟩
  | .closing =>
      match scan.opened with
      | [] => .error (.unmatchedClosing lexeme.start)
      | _ :: outer => .ok ⟨outer, scan.tops⟩
  | .atom text =>
      match ofAtom text lexeme.start with
      | .error _ => .error (.unknownAtom text lexeme.start)
      | .ok _ => .ok (scan.begin lexeme.start)

/-- The scan of more lexemes, up to the first one at fault. -/
def run (limit : Nat) (scan : Scan) (lexemes : List Lexeme) : Except Malformed Scan :=
  lexemes.foldlM (step limit) scan

@[simp]
theorem run_nil (limit : Nat) (scan : Scan) : scan.run limit [] = .ok scan := rfl

theorem run_cons (limit : Nat) (scan : Scan) (first : Lexeme) (rest : List Lexeme) :
    scan.run limit (first :: rest) =
      match scan.step limit first with
      | .error fault => .error fault
      | .ok next => next.run limit rest := by
  rw [run, List.foldlM_cons]
  cases scan.step limit first <;> rfl

theorem run_append {limit : Nat} {scan next : Scan} {before : List Lexeme}
    (passed : scan.run limit before = .ok next) (after : List Lexeme) :
    scan.run limit (before ++ after) = next.run limit after := by
  unfold run at passed ⊢
  rw [List.foldlM_append, passed]
  rfl

/-- A scan that comes through some lexemes comes through the first one and then through the rest. -/
theorem run_cons_eq_ok {limit : Nat} {scan last : Scan} {first : Lexeme} {rest : List Lexeme}
    (ran : scan.run limit (first :: rest) = .ok last) :
    ∃ next, scan.step limit first = .ok next ∧ next.run limit rest = .ok last := by
  rw [run_cons] at ran
  cases stepped : scan.step limit first with
  | error fault => rw [stepped] at ran; cases ran
  | ok next => rw [stepped] at ran; exact ⟨next, rfl, ran⟩

/-- A scan that does not come through some lexemes comes up to one that is at fault. -/
theorem exists_step_of_run_error {limit : Nat} {scan : Scan} {lexemes : List Lexeme}
    {fault : Malformed} (failed : scan.run limit lexemes = .error fault) :
    ∃ before lexeme after next, lexemes = before ++ lexeme :: after ∧
      scan.run limit before = .ok next ∧ next.step limit lexeme = .error fault := by
  induction lexemes generalizing scan with
  | nil => cases failed
  | cons first rest ih =>
      rw [run_cons] at failed
      cases stepped : scan.step limit first with
      | error other =>
          rw [stepped] at failed
          cases failed
          exact ⟨[], first, rest, scan, rfl, rfl, stepped⟩
      | ok middle =>
          rw [stepped] at failed
          obtain ⟨before, lexeme, after, next, rfl, ran, stops⟩ := ih failed
          refine ⟨first :: before, lexeme, after, next, rfl, ?_, stops⟩
          rw [run_cons, stepped]
          exact ran

/-! One step: its equations, and what they leave for each outcome. -/

variable {limit : Nat} {scan : Scan} {lexeme : Lexeme}

theorem step_opening (opening : lexeme.token = .opening) (room : scan.opened.length < limit) :
    scan.step limit lexeme = .ok ⟨lexeme.start :: scan.opened, (scan.begin lexeme.start).tops⟩ := by
  simp only [step, opening]
  rw [if_neg (by omega)]

theorem step_opening_full (opening : lexeme.token = .opening) (full : limit ≤ scan.opened.length) :
    scan.step limit lexeme = .error (.tooDeep limit lexeme.start) := by
  simp only [step, opening]
  rw [if_pos (by omega)]

theorem step_closing {innermost : Nat} {outer tops : List Nat} (closing : lexeme.token = .closing) :
    step limit ⟨innermost :: outer, tops⟩ lexeme = .ok ⟨outer, tops⟩ := by
  simp only [step, closing]

theorem step_closing_unmatched (closing : lexeme.token = .closing) (none : scan.opened = []) :
    scan.step limit lexeme = .error (.unmatchedClosing lexeme.start) := by
  simp only [step, closing, none]

theorem step_atom {text : String} {leaf : Expr} (atom : lexeme.token = .atom text)
    (stands : ofAtom text lexeme.start = .ok leaf) :
    scan.step limit lexeme = .ok (scan.begin lexeme.start) := by
  simp only [step, atom, stands]

theorem step_atom_unknown {text : String} {fault : Malformed} (atom : lexeme.token = .atom text)
    (unknown : ofAtom text lexeme.start = .error fault) :
    scan.step limit lexeme = .error (.unknownAtom text lexeme.start) := by
  simp only [step, atom, unknown]

theorem opened_begin (scan : Scan) (position : Nat) :
    (scan.begin position).opened = scan.opened := by
  rcases scan with ⟨_ | ⟨innermost, outer⟩, tops⟩ <;> rfl

/-- All that one more lexeme can do to a scan. -/
theorem step_eq_ok {next : Scan} (stepped : scan.step limit lexeme = .ok next) :
    (lexeme.token = .opening ∧ scan.opened.length < limit ∧
        next = ⟨lexeme.start :: scan.opened, (scan.begin lexeme.start).tops⟩) ∨
      (∃ innermost outer, lexeme.token = .closing ∧ scan.opened = innermost :: outer ∧
        next = ⟨outer, scan.tops⟩) ∨
      ∃ text leaf, lexeme.token = .atom text ∧ ofAtom text lexeme.start = .ok leaf ∧
        next = scan.begin lexeme.start := by
  unfold step at stepped
  split at stepped
  · next opening =>
      split at stepped
      · cases stepped
      · next room =>
          cases stepped
          exact .inl ⟨opening, by omega, rfl⟩
  · next closing =>
      split at stepped
      · cases stepped
      · next innermost outer opened =>
          cases stepped
          exact .inr (.inl ⟨innermost, outer, closing, opened, rfl⟩)
  · next text atom =>
      split at stepped
      · cases stepped
      · next leaf stands =>
          cases stepped
          exact .inr (.inr ⟨text, leaf, atom, stands, rfl⟩)

/-- All faults that one more lexeme can have. -/
theorem step_eq_error {fault : Malformed} (failed : scan.step limit lexeme = .error fault) :
    (lexeme.token = .opening ∧ limit ≤ scan.opened.length ∧ fault = .tooDeep limit lexeme.start) ∨
      (lexeme.token = .closing ∧ scan.opened = [] ∧ fault = .unmatchedClosing lexeme.start) ∨
      ∃ text, lexeme.token = .atom text ∧ (∀ leaf, ofAtom text lexeme.start ≠ .ok leaf) ∧
        fault = .unknownAtom text lexeme.start := by
  unfold step at failed
  split at failed
  · next opening =>
      split at failed
      · next full =>
          cases failed
          exact .inl ⟨opening, by omega, rfl⟩
      · cases failed
  · next closing =>
      split at failed
      · next opened =>
          cases failed
          exact .inr (.inl ⟨closing, opened, rfl⟩)
      · cases failed
  · next text atom =>
      split at failed
      · next unknown =>
          cases failed
          exact .inr (.inr ⟨text, atom, by simp [unknown], rfl⟩)
      · cases failed

/--
A scan of some lexemes stops with a fault: with that of one of them, or else because they end before
the innermost open parenthesis is closed.
-/
inductive Stops : Except Malformed Scan → Malformed → Prop where
  | lexeme (fault : Malformed) : Stops (.error fault) fault
  | unclosed (innermost : Nat) (outer tops : List Nat) :
      Stops (.ok ⟨innermost :: outer, tops⟩) (.unclosed innermost)

end Scan

/-! ## The reader goes along with the scan -/

/-- An atom that stands for nothing is reported by its text and its position. -/
theorem ofAtom_eq_error {text : String} {position : Nat} {fault : Malformed}
    (unknown : ofAtom text position = .error fault) : fault = .unknownAtom text position := by
  unfold ofAtom at unknown
  split at unknown
  · cases unknown
  · split at unknown
    · cases unknown
    · cases unknown
      rfl

mutual

/-- After an element the scan is where it was before, but for the start of an expression. -/
theorem run_of_element {limit : Nat} (scan : Scan) {first : Lexeme} {rest : List Lexeme}
    {expr : Expr} {after : Remainder (first :: rest)}
    (found : element limit scan.opened.length first rest = .ok (expr, after)) :
    scan.run limit (first :: rest) = (scan.begin first.start).run limit after.val := by
  rw [element] at found
  split at found
  · next opening =>
      split at found
      · cases found
      · next room =>
          split at found
          · cases found
          · next inner =>
              cases found
              rw [Scan.run_cons, Scan.step_opening opening (Nat.not_le.mp room)]
              refine (run_of_members (scan.begin first.start).tops inner).trans ?_
              rw [← scan.opened_begin first.start]
  · cases found
  · next text atom =>
      split at found
      · cases found
      · next leaf stands =>
          cases found
          rw [Scan.run_cons, Scan.step_atom atom stands]
  termination_by (rest.length + 1, 0)

/-- After the members of a group the scan has closed the parenthesis that opened the group. -/
theorem run_of_members {limit opened : Nat} {outer : List Nat} (tops : List Nat)
    {lexemes : List Lexeme} {exprs : List Expr} {after : Remainder lexemes}
    (found : members limit (outer.length + 1) opened lexemes = .ok (exprs, after)) :
    Scan.run limit ⟨opened :: outer, tops⟩ lexemes = Scan.run limit ⟨outer, tops⟩ after.val := by
  match lexemes with
  | [] =>
      rw [members] at found
      cases found
  | first :: rest =>
      rw [members] at found
      split at found
      · next closing =>
          cases found
          rw [Scan.run_cons, Scan.step_closing closing]
      · split at found
        · cases found
        · next child middle shorter head =>
            split at found
            · cases found
            · next tail =>
                cases found
                calc
                  _ = Scan.run limit ⟨opened :: outer, tops⟩ middle :=
                    run_of_element ⟨opened :: outer, tops⟩ head
                  _ = _ := run_of_members tops tail
  termination_by (lexemes.length, 1)

end

mutual

/-- Where no element can be read, the scan stops with the same fault. -/
theorem stops_of_element {limit : Nat} (scan : Scan) {first : Lexeme} {rest : List Lexeme}
    {fault : Malformed} (failed : element limit scan.opened.length first rest = .error fault)
    (top : first.token = .closing → scan.opened = []) :
    Scan.Stops (scan.run limit (first :: rest)) fault := by
  rw [element] at failed
  split at failed
  · next opening =>
      split at failed
      · next full =>
          cases failed
          rw [Scan.run_cons, Scan.step_opening_full opening full]
          exact .lexeme _
      · next room =>
          split at failed
          · next inner =>
              cases failed
              rw [Scan.run_cons, Scan.step_opening opening (Nat.not_le.mp room)]
              exact stops_of_members (scan.begin first.start).tops inner
          · cases failed
  · next closing =>
      cases failed
      rw [Scan.run_cons, Scan.step_closing_unmatched closing (top closing)]
      exact .lexeme _
  · next text atom =>
      split at failed
      · next unknown =>
          cases failed
          rw [Scan.run_cons, Scan.step_atom_unknown atom unknown, ofAtom_eq_error unknown]
          exact .lexeme _
      · cases failed
  termination_by (rest.length + 1, 0)

/-- Where the members of a group cannot be read, the scan stops with the same fault. -/
theorem stops_of_members {limit opened : Nat} {outer : List Nat} (tops : List Nat)
    {lexemes : List Lexeme} {fault : Malformed}
    (failed : members limit (outer.length + 1) opened lexemes = .error fault) :
    Scan.Stops (Scan.run limit ⟨opened :: outer, tops⟩ lexemes) fault := by
  match lexemes with
  | [] =>
      rw [members] at failed
      cases failed
      exact .unclosed opened outer tops
  | first :: rest =>
      rw [members] at failed
      split at failed
      · cases failed
      · next other =>
          split at failed
          · next head =>
              cases failed
              exact stops_of_element ⟨opened :: outer, tops⟩ head (absurd · other)
          · next child middle shorter head =>
              split at failed
              · next tail =>
                  cases failed
                  rw [run_of_element ⟨opened :: outer, tops⟩ head]
                  exact stops_of_members tops tail
              · cases failed
  termination_by (lexemes.length, 1)

end

/-- The scan finds the expressions at the top that the reader finds, and nothing is left open. -/
theorem run_of_sequence {limit index stop : Nat} (tops : List Nat) {lexemes : List Lexeme}
    {found : List (Nat × Expr)} (read : sequence limit index lexemes = .ok (stop, found)) :
    Scan.run limit ⟨[], tops⟩ lexemes = .ok ⟨[], tops ++ found.map Prod.fst⟩ := by
  fun_induction sequence limit index lexemes generalizing stop found tops with
  | case1 index =>
      cases read
      simp
  | case2 index first rest fault head => cases read
  | case3 index first rest expr after shorter head fault tail ih => cases read
  | case4 index first rest expr after shorter head stop others tail ih =>
      cases read
      have same := run_of_element ⟨[], tops⟩ head
      rw [same, List.map_cons, List.append_cons]
      exact ih _ tail

/-- Where one of the expressions at the top cannot be read, the scan stops with the same fault. -/
theorem stops_of_sequence {limit index : Nat} (tops : List Nat) {lexemes : List Lexeme}
    {fault : Malformed} (failed : sequence limit index lexemes = .error fault) :
    Scan.Stops (Scan.run limit ⟨[], tops⟩ lexemes) fault := by
  fun_induction sequence limit index lexemes generalizing fault tops with
  | case1 index => cases failed
  | case2 index first rest other head =>
      cases failed
      exact stops_of_element ⟨[], tops⟩ head fun _ => rfl
  | case3 index first rest expr after shorter head other tail ih =>
      cases failed
      have same := run_of_element ⟨[], tops⟩ head
      rw [same]
      exact ih _ tail
  | case4 index first rest expr after shorter head stop others tail ih => cases failed

/-! ## The first fault -/

/-- The fault of a scan that has come to the end of all lexemes, at a position. -/
def Scan.endFault? (scan : Scan) (position : Nat) : Option Malformed :=
  match scan.opened, scan.tops with
  | innermost :: _, _ => some (.unclosed innermost)
  | [], [_] => none
  | [], [] => some (.notSingle 0 position)
  | [], first :: second :: others => some (.notSingle (first :: second :: others).length second)

/-- The fault that a scan of the lexemes from an index on finds first. -/
def firstFault? (limit : Nat) (lexemes : List Lexeme) (index : Nat) : Option Malformed :=
  match Scan.start.run limit (lexemes.drop index) with
  | .error fault => some fault
  | .ok scan => scan.endFault? ((lexemes.getLast?.map Lexeme.stop).getD 0)

theorem Scan.Stops.firstFault?_eq {limit index : Nat} {lexemes : List Lexeme} {fault : Malformed}
    (stops : Scan.Stops (Scan.start.run limit (lexemes.drop index)) fault) :
    firstFault? limit lexemes index = some fault := by
  unfold firstFault?
  generalize Scan.start.run limit (lexemes.drop index) = outcome at stops
  cases stops with
  | lexeme => rfl
  | unclosed innermost outer tops => rfl

/-- The reader fails with the first fault of the scan. -/
theorem firstFault?_of_single_error {limit index : Nat} {lexemes : List Lexeme} {fault : Malformed}
    (failed : single limit lexemes index = .error fault) :
    firstFault? limit lexemes index = some fault := by
  unfold single at failed
  split at failed
  · next inner =>
      cases failed
      exact (stops_of_sequence [] inner).firstFault?_eq
  · cases failed
  · next read =>
      cases failed
      have scanned := run_of_sequence [] read
      rw [firstFault?, Scan.start, scanned]
      rfl
  · next first second others read =>
      cases failed
      have scanned := run_of_sequence [] read
      rw [firstFault?, Scan.start, scanned]
      simp [Scan.endFault?]

/-- Where the reader succeeds, the scan finds no fault. -/
theorem firstFault?_of_single_ok {limit index stop : Nat} {lexemes : List Lexeme} {expr : Expr}
    (found : single limit lexemes index = .ok (stop, expr)) :
    firstFault? limit lexemes index = none := by
  unfold single at found
  split at found
  · cases found
  · next read =>
      cases found
      have scanned := run_of_sequence [] read
      rw [firstFault?, Scan.start, scanned]
      rfl
  · cases found
  · cases found

/-- Where the scan finds a fault, the reader fails with it. -/
theorem single_error_of_firstFault? {limit index : Nat} {lexemes : List Lexeme} {fault : Malformed}
    (scanned : firstFault? limit lexemes index = some fault) :
    single limit lexemes index = .error fault := by
  cases outcome : single limit lexemes index with
  | error other =>
      rw [firstFault?_of_single_error outcome] at scanned
      rw [Option.some.inj scanned]
  | ok found =>
      rw [firstFault?_of_single_ok outcome] at scanned
      cases scanned

/--
What is told of the first fault of the lexemes from an index on: of the first one which closes
nothing, opens one level more than the limit allows or is an unknown atom; or else of the innermost
parenthesis left open; or else of the number of expressions, at the start of the second one or behind
the last lexeme.
-/
inductive TellsFirst (limit : Nat) (lexemes : List Lexeme) (index : Nat) :
    Malformed.Notice → Prop where
  | unmatchedClosing {before after : List Lexeme} {lexeme : Lexeme} {scan : Scan}
      (cut : lexemes.drop index = before ++ lexeme :: after)
      (passed : Scan.start.run limit before = .ok scan) (closing : lexeme.token = .closing)
      (closed : scan.opened = []) :
      TellsFirst limit lexemes index ⟨.badStructure,
        "Syntax error: unexpected `)` without matching `(` at position " ++ toString lexeme.start,
        some lexeme.start⟩
  | tooDeep {before after : List Lexeme} {lexeme : Lexeme} {scan : Scan}
      (cut : lexemes.drop index = before ++ lexeme :: after)
      (passed : Scan.start.run limit before = .ok scan) (opening : lexeme.token = .opening)
      (full : limit < scan.opened.length + 1) :
      TellsFirst limit lexemes index ⟨.nestingTooDeep,
        "Syntax error: nesting deeper than " ++ toString limit ++ " levels" ++ " at position " ++
          toString lexeme.start,
        some lexeme.start⟩
  | unknownAtom {before after : List Lexeme} {lexeme : Lexeme} {scan : Scan} {text : String}
      (cut : lexemes.drop index = before ++ lexeme :: after)
      (passed : Scan.start.run limit before = .ok scan) (atom : lexeme.token = .atom text)
      (unknown : ∀ leaf, ofAtom text lexeme.start ≠ .ok leaf) :
      TellsFirst limit lexemes index
        ⟨.unknownToken, "Unknown token: " ++ text, some lexeme.start⟩
  | unclosed {innermost : Nat} {outer tops : List Nat}
      (passed : Scan.start.run limit (lexemes.drop index) = .ok ⟨innermost :: outer, tops⟩) :
      TellsFirst limit lexemes index ⟨.badStructure,
        "Syntax error: unclosed `(` at position " ++ toString innermost, some innermost⟩
  | noExpression {stop : Nat}
      (passed : Scan.start.run limit (lexemes.drop index) = .ok ⟨[], []⟩)
      (last : stop = (lexemes.getLast?.map Lexeme.stop).getD 0) :
      TellsFirst limit lexemes index ⟨.badStructure,
        "Syntax error: expected a single top-level expression, found 0 at position " ++
          toString stop,
        some stop⟩
  | manyExpressions {first second : Nat} {others : List Nat}
      (passed : Scan.start.run limit (lexemes.drop index) = .ok ⟨[], first :: second :: others⟩) :
      TellsFirst limit lexemes index ⟨.badStructure,
        "Syntax error: expected a single top-level expression, found " ++
          toString (others.length + 2) ++ " at position " ++ toString second,
        some second⟩

/-- The first fault of a scan is told as the rules say. -/
theorem tellsFirst_notice {limit index : Nat} {lexemes : List Lexeme} {fault : Malformed}
    (scanned : firstFault? limit lexemes index = some fault) :
    TellsFirst limit lexemes index fault.notice := by
  unfold firstFault? at scanned
  split at scanned
  · next failed =>
      cases scanned
      obtain ⟨before, lexeme, after, next, cut, passed, stops⟩ :=
        Scan.exists_step_of_run_error failed
      rcases Scan.step_eq_error stops with ⟨opening, full, rfl⟩ | ⟨closing, closed, rfl⟩ |
        ⟨text, atom, unknown, rfl⟩
      · exact .tooDeep cut passed opening (Nat.lt_succ_of_le full)
      · exact .unmatchedClosing cut passed closing closed
      · exact .unknownAtom cut passed atom unknown
  · next scan passed =>
      rcases scan with ⟨_ | ⟨innermost, outer⟩, tops⟩
      · rcases tops with _ | ⟨first, _ | ⟨second, others⟩⟩
        · cases scanned
          exact .noExpression passed rfl
        · cases scanned
        · cases scanned
          exact .manyExpressions passed
      · cases scanned
        exact .unclosed passed

/-- What the rules tell is told of the first fault of a scan. -/
theorem TellsFirst.exists_firstFault? {limit index : Nat} {lexemes : List Lexeme}
    {notice : Malformed.Notice} (tells : TellsFirst limit lexemes index notice) :
    ∃ fault, firstFault? limit lexemes index = some fault ∧ fault.notice = notice := by
  have stopped {before after : List Lexeme} {lexeme : Lexeme} {scan : Scan} {fault : Malformed}
      (cut : lexemes.drop index = before ++ lexeme :: after)
      (passed : Scan.start.run limit before = .ok scan)
      (stops : scan.step limit lexeme = .error fault) :
      firstFault? limit lexemes index = some fault := by
    rw [firstFault?, cut, Scan.run_append passed, Scan.run_cons, stops]
  cases tells with
  | @unmatchedClosing _ _ lexeme _ cut passed closing closed =>
      exact ⟨_, stopped cut passed (Scan.step_closing_unmatched closing closed), rfl⟩
  | @tooDeep _ _ lexeme _ cut passed opening full =>
      exact ⟨_, stopped cut passed (Scan.step_opening_full opening (Nat.le_of_lt_succ full)), rfl⟩
  | @unknownAtom _ _ lexeme _ text cut passed atom unknown =>
      cases stands : ofAtom text lexeme.start with
      | ok leaf => exact absurd stands (unknown leaf)
      | error fault => exact ⟨_, stopped cut passed (Scan.step_atom_unknown atom stands), rfl⟩
  | unclosed passed => exact ⟨.unclosed _, by rw [firstFault?, passed]; rfl, rfl⟩
  | noExpression passed last =>
      subst last
      exact ⟨.notSingle 0 _, by rw [firstFault?, passed]; rfl, rfl⟩
  | @manyExpressions first second others passed =>
      exact ⟨.notSingle (others.length + 2) second, by rw [firstFault?, passed]; rfl, rfl⟩

/--
Lexemes from an index on fail to be a single expression exactly if a scan finds a fault among them,
and what is told is the kind, the message and the position of the first one.
-/
theorem single_eq_error_iff (limit index : Nat) (lexemes : List Lexeme)
    (notice : Malformed.Notice) :
    (single limit lexemes index).mapError Malformed.notice = .error notice ↔
      TellsFirst limit lexemes index notice := by
  constructor
  · intro told
    cases outcome : single limit lexemes index with
    | ok found =>
        rw [outcome] at told
        cases told
    | error fault =>
        rw [outcome] at told
        cases told
        exact tellsFirst_notice (firstFault?_of_single_error outcome)
  · intro tells
    obtain ⟨fault, scanned, rfl⟩ := tells.exists_firstFault?
    rw [single_error_of_firstFault? scanned]
    rfl

end Expr

end PrefixArith
