import PrefixArith.Proofs.CommandLine.Run

/-!
# Where the caret stands

A text that is shown moves a cursor, by one column with each character and to the start of the next
line with each line feed. Below an echoed expression the caret of a report stands in the column that
all characters before the culprit would fill in a single line. So it stands right under the culprit
exactly if the expression is a single line. Every line of an input is one; an argument need not be.
-/

namespace PrefixArith

namespace Text

/-- Where the next character of a text is shown: its line, and its column there, counted from 0. -/
structure Cursor where
  line : Nat
  column : Nat
  deriving DecidableEq

namespace Cursor

/-- The cursor behind one more character. -/
def next (cursor : Cursor) (character : Char) : Cursor :=
  if character = '\n' then ⟨cursor.line + 1, 0⟩ else ⟨cursor.line, cursor.column + 1⟩

/-- The cursor behind some characters. -/
def run (cursor : Cursor) (text : List Char) : Cursor :=
  text.foldl next cursor

/-- The cursor behind a text from its start. -/
def behind (text : String) : Cursor :=
  run ⟨0, 0⟩ text.toList

/-- A place is right under another one: on the next line, in the same column. -/
structure IsUnder (lower upper : Cursor) : Prop where
  line : lower.line = upper.line + 1
  column : lower.column = upper.column

variable {cursor : Cursor} {text left right : List Char}

theorem run_append : run cursor (left ++ right) = run (run cursor left) right :=
  List.foldl_append

theorem behind_append (left right : String) :
    behind (left ++ right) = run (behind left) right.toList := by
  rw [behind, String.toList_append, run_append, behind]

theorem run_cons (cursor : Cursor) (first : Char) (rest : List Char) :
    run cursor (first :: rest) = run (cursor.next first) rest := rfl

theorem next_feed (cursor : Cursor) : cursor.next '\n' = ⟨cursor.line + 1, 0⟩ := rfl

theorem next_of_ne {character : Char} (other : character ≠ '\n') (cursor : Cursor) :
    cursor.next character = ⟨cursor.line, cursor.column + 1⟩ :=
  if_neg other

/-- A text goes on as many lines as it has line feeds. -/
theorem line_run (cursor : Cursor) (text : List Char) :
    (run cursor text).line = cursor.line + text.count '\n' := by
  induction text generalizing cursor with
  | nil => rfl
  | cons first rest ih =>
      rw [run_cons, ih]
      by_cases feed : first = '\n'
      · rw [feed, next_feed, List.count_cons_self, Nat.add_assoc, Nat.add_comm 1]
      · rw [next_of_ne feed, List.count_cons_of_ne feed]

/-- A single line goes on as many columns as it has characters. -/
theorem run_of_isLine (isLine : IsLine text) (cursor : Cursor) :
    run cursor text = ⟨cursor.line, cursor.column + text.length⟩ := by
  induction text generalizing cursor with
  | nil => rfl
  | cons first rest ih =>
      rw [IsLine, List.mem_cons, not_or] at isLine
      rw [run_cons, next_of_ne (Ne.symm isLine.1), ih isLine.2, List.length_cons, Nat.add_assoc,
        Nat.add_comm 1]

/-- Behind a line feed the columns are counted anew. -/
theorem column_run_lt (feeds : ¬ IsLine text) (cursor : Cursor) :
    (run cursor text).column < text.length := by
  induction text generalizing cursor with
  | nil => exact absurd List.not_mem_nil feeds
  | cons first rest ih =>
      rw [run_cons, List.length_cons]
      by_cases restIsLine : IsLine rest
      · obtain rfl : first = '\n' := by
          by_contra other
          exact feeds (restIsLine.cons (Ne.symm other))
        rw [next_feed, run_of_isLine restIsLine, Nat.zero_add]
        exact Nat.lt_succ_self _
      · exact Nat.lt_succ_of_lt (ih restIsLine (cursor.next first))

end Cursor

/--
Below the echo of a text behind a margin, a caret behind the same margin and one column for each
character of the first part is right under the start of the second part exactly if the text is a
single line.
-/
theorem isUnder_behind_iff {margin : String} (isMargin : IsLine margin.toList)
    (before after : String) :
    Cursor.IsUnder
        (.behind (margin ++ (before ++ after) ++ "\n" ++
          (margin ++ String.ofList (List.replicate before.length ' '))))
        (.behind (margin ++ before)) ↔
      IsLine (before ++ after).toList := by
  have noFeed : margin.toList.count '\n' = 0 := List.count_eq_zero.mpr isMargin
  have isLower : IsLine (margin ++ String.ofList (List.replicate before.length ' ')).toList := by
    apply isMargin.toList_append
    rw [String.toList_ofList]
    intro member
    cases List.eq_of_mem_replicate member
  have lower : Cursor.behind (margin ++ (before ++ after) ++ "\n" ++
      (margin ++ String.ofList (List.replicate before.length ' '))) =
        ⟨before.toList.count '\n' + after.toList.count '\n' + 1,
          margin.toList.length + before.toList.length⟩ := by
    have feed (cursor : Cursor) : cursor.run "\n".toList = ⟨cursor.line + 1, 0⟩ := rfl
    have width : (margin ++ String.ofList (List.replicate before.length ' ')).toList.length =
        margin.toList.length + before.toList.length := by
      rw [String.toList_append, String.toList_ofList, List.length_append, List.length_replicate,
        ← String.length_toList]
    rw [Cursor.behind_append, Cursor.run_of_isLine isLower, width, Cursor.behind_append, feed,
      Cursor.behind, Cursor.line_run, String.toList_append, String.toList_append,
      List.count_append, List.count_append, noFeed]
    simp only [Nat.zero_add]
  have upper : Cursor.behind (margin ++ before) =
      Cursor.run ⟨0, margin.toList.length⟩ before.toList := by
    rw [Cursor.behind_append, Cursor.behind, Cursor.run_of_isLine isMargin, Nat.zero_add]
  have whole : IsLine (before ++ after).toList ↔
      IsLine before.toList ∧ IsLine after.toList := by
    rw [String.toList_append, IsLine, List.mem_append, not_or]
    rfl
  rw [lower, whole]
  constructor
  · rintro ⟨nextLine, sameColumn⟩
    rw [upper, Cursor.line_run, Nat.zero_add] at nextLine
    have isAfter : IsLine after.toList := List.count_eq_zero.mp (by simpa using nextLine)
    refine ⟨?_, isAfter⟩
    -- Behind a line feed the column of the culprit would not count the characters before that.
    by_contra feeds
    have short := Cursor.column_run_lt feeds ⟨0, margin.toList.length⟩
    rw [upper] at sameColumn
    dsimp only at sameColumn
    omega
  · rintro ⟨isBefore, isAfter⟩
    rw [upper, Cursor.run_of_isLine isBefore]
    constructor
    · dsimp only
      rw [List.count_eq_zero.mpr isBefore, List.count_eq_zero.mpr isAfter]
    · rfl

end Text

open Text (Cursor IsLine)

/-- A word that can stand as an atom is a single line. -/
theorem Token.Precedes.isLine {word : String} {rest : List Char}
    (precedes : (Token.atom word).Precedes rest) : IsLine word.toList := by
  intro feeds
  cases precedes.2.1 '\n' feeds

/-- The message about a fault is a single line, whatever atom it shows. -/
theorem Malformed.isLine_message {calculator : Calculator} {before after : String}
    {fault : Malformed} (points : fault.PointsAt calculator before after) :
    IsLine fault.message.toList := by
  have structural {description : String} (isLine : IsLine description.toList) (position : Nat) :
      IsLine (structureMessage description position).toList := by
    have start : IsLine "Syntax error: ".toList := by decide
    have middle : IsLine " at position ".toList := by decide
    exact ((start.toList_append isLine).toList_append middle).toList_append
      (Text.isLine_natText position)
  cases fault with
  | noToken => exact points.elim
  | unreadable position => exact points.elim
  | unknownAtom word position =>
      obtain ⟨rest, -, precedes, -⟩ := points
      have start : IsLine "Unknown token: ".toList := by decide
      exact start.toList_append precedes.isLine
  | unmatchedClosing position => exact structural (by decide) position
  | unclosed position => exact structural (by decide) position
  | notSingle count position =>
      have start : IsLine "expected a single top-level expression, found ".toList := by
        decide
      exact structural (start.toList_append (Text.isLine_natText count)) position
  | tooDeep limit position =>
      have start : IsLine "nesting deeper than ".toList := by decide
      have finish : IsLine " levels".toList := by decide
      exact structural ((start.toList_append (Text.isLine_natText limit)).toList_append finish)
        position

namespace CommandLine

namespace Job

/-- No line of an input has a line feed in it. -/
theorem Lined.lineFeed_notMem {input : List UInt8} {found : List (List UInt8)}
    (lined : Lined input found) : ∀ line ∈ found, lineFeed ∉ line := by
  induction lined with
  | none => exact nofun
  | last nonempty whole => exact List.forall_mem_singleton.mpr whole
  | @ended line rest others whole divided ih =>
      refine List.forall_mem_cons.mpr ⟨?_, ih⟩
      intro member
      unfold dropReturn at member
      split at member
      · exact whole (List.dropLast_subset line member)
      · exact whole member

/-- An expression that is read from an input is a single line. -/
theorem Due.isLine {input : List UInt8} {jobs : List Job} (due : Due [] input jobs)
    {text : String} (member : expression text ∈ jobs) : IsLine text.toList := by
  intro feeds
  cases due with
  | given nonempty => exact nonempty rfl
  | read lined =>
      obtain ⟨line, inFound, job⟩ := List.mem_filterMap.mp member
      have bytes : Text.encode text.toList = line := by
        unfold ofLine? at job
        split at job
        · cases job
        · next held decoded =>
            split at job
            · cases job
            · cases job
              exact Text.encode_of_fromUTF8? decoded
      apply lined.lineFeed_notMem line inFound
      rw [← bytes]
      exact List.mem_flatMap.mpr ⟨'\n', feeds, List.mem_cons_self⟩

end Job

namespace Report

variable {settings : Settings} {earlier : List Job} {values : List Value} {text : String}
  {fault : Malformed}

/--
When the first expression that fails is at fault at some position, the message is one line, and below
it stand the expression behind a margin of two columns and a caret. The caret is right under the
character at this position, of which the message tells, exactly if the expression is a single line;
every expression that is read from an input is one.
-/
theorem ofCommand_caret {arguments : List String} {options : Options}
    (asked : request arguments = .ok (.run options)) {file : String → Settings.File}
    (inForce : Settings.InForce (file options.path) settings) {input : List UInt8}
    {later : List Job}
    (due : Job.Due options.expressions input (earlier ++ .expression text :: later))
    (done : List.Forall₂ (Job.Gives ⟨settings⟩) earlier values)
    (failed : Calculator.evaluate ⟨settings⟩ text = .error (.reading fault)) {position : Nat}
    (placed : fault.position? = some position) (log : String) :
    ∃ before after : String, text = before ++ after ∧ before.utf8ByteSize = position ∧
      fault.PointsAt ⟨settings⟩ before after ∧
      IsLine (Failure.reading fault).message.toList ∧
      (ofCommand arguments file input log).errors =
        options.written log ++ ("Error: " ++ (Failure.reading fault).message ++ "\n" ++
          ("  " ++ text ++ "\n" ++ ("  " ++ String.ofList (List.replicate before.length ' ')) ++
            "^\n")) ∧
      (Cursor.IsUnder
          (.behind ("  " ++ text ++ "\n" ++
            ("  " ++ String.ofList (List.replicate before.length ' '))))
          (.behind ("  " ++ before)) ↔
        IsLine text.toList) ∧
      (options.expressions = [] → IsLine text.toList) := by
  obtain ⟨-, before, after, cut, size, points, caret⟩ :=
    (Malformed.Located.of_read (Calculator.read_of_evaluate failed)).somewhere position placed
  have margin : IsLine "  ".toList := by decide
  refine ⟨before, after, cut, size, points, ?_, ?_, ?_, ?_⟩
  · have start : IsLine "Parsing failed: ".toList := by decide
    exact start.toList_append (Malformed.isLine_message points)
  · obtain ⟨output, printed⟩ := exists_prints options.json values
    have outcome : (Job.expression text).outcome ⟨settings⟩ = .error (.reading fault) := failed
    have errors : (ofFailure (.reading fault) (Job.expression text).text?).errors =
        "Error: " ++ (Failure.reading fault).message ++ "\n" ++ caretLines text position := by
      simp [ofFailure, Job.text?, Failure.position?, placed]
    have feed : "\n  " = "\n" ++ "  " := by decide
    rw [ofCommand_eq asked inForce due, ofJobs_stopped done printed outcome, errors, caret, feed]
    simp only [withLog, String.append_assoc]
  · rw [cut]
    exact Text.isUnder_behind_iff margin before after
  · intro bare
    rw [bare] at due
    exact due.isLine (List.mem_append_right earlier List.mem_cons_self)

/-- Below an argument of two lines the caret is not under the unknown atom in the second one. -/
theorem ofCommand_caret_of_two_lines :
    let given := ["(+ 1\nfoo)"]
    (ofCommand given (fun _ => .absent) [] "").errors =
        "Error: Parsing failed: Unknown token: foo\n  (+ 1\nfoo)\n       ^\n" ∧
      ∃ before after : String, "(+ 1\nfoo)" = before ++ after ∧ before.utf8ByteSize = 5 ∧
        (∃ rest, after = "foo" ++ rest) ∧
        ¬ Cursor.IsUnder
            (.behind ("  " ++ "(+ 1\nfoo)" ++ "\n" ++
              ("  " ++ String.ofList (List.replicate before.length ' '))))
            (.behind ("  " ++ before)) := by
  intro given
  have asked : request given = .ok (.run ⟨given, none, false, false⟩) := rfl
  have divided : Lexeme.readFrom 0 "(+ 1\nfoo)".toList =
      .ok [⟨.opening, 0, 1⟩, ⟨.atom "+", 1, 2⟩, ⟨.atom "1", 3, 4⟩, ⟨.atom "foo", 5, 8⟩,
        ⟨.closing, 8, 9⟩] := by
    decide +kernel
  have division := Lexeme.readFrom_eq_ok_iff.mp divided
  have scanned : Expr.firstFault? Calculator.standard.settings.maxDepth
      [⟨.opening, 0, 1⟩, ⟨.atom "+", 1, 2⟩, ⟨.atom "1", 3, 4⟩, ⟨.atom "foo", 5, 8⟩,
        ⟨.closing, 8, 9⟩] 0 = some (.unknownAtom "foo" 5) := by
    decide +kernel
  have unread : Calculator.standard.read "(+ 1\nfoo)" = .error (.unknownAtom "foo" 5) := by
    rw [Calculator.read, Expr.read_eq division, if_neg (List.cons_ne_nil _ _),
      Expr.ofLexemes_eq_error_iff]
    exact Expr.single_error_of_firstFault? scanned
  have failed : Calculator.standard.evaluate "(+ 1\nfoo)" =
      .error (.reading (.unknownAtom "foo" 5)) := by
    rw [Calculator.evaluate, unread]
  have due : Job.Due given [] ([] ++ .expression "(+ 1\nfoo)" :: []) :=
    .given (List.cons_ne_nil _ _) []
  have shown : (ofCommand given (fun _ => .absent) [] "").errors =
      "Error: Parsing failed: Unknown token: foo\n  (+ 1\nfoo)\n       ^\n" := by
    have outcome : (Job.expression "(+ 1\nfoo)").outcome .standard =
        .error (.reading (.unknownAtom "foo" 5)) := failed
    have runs : Runs given (fun _ => .absent) [] .standard false [.expression "(+ 1\nfoo)"] :=
      .asked asked rfl .standard due
    rw [runs.ofCommand_eq]
    exact (congrArg errors (ofJobs_cons_error outcome [])).trans (by decide)
  obtain ⟨before, after, cut, size, ⟨rest, culprit, -⟩, -, -, under, -⟩ :=
    @ofCommand_caret _ _ _ _ _ _ _ asked (fun _ => .absent) .standard _ _ due .nil failed _ rfl ""
  have twoLines : ¬ IsLine "(+ 1\nfoo)".toList := by decide
  exact ⟨shown, before, after, cut, size, ⟨rest, culprit⟩, mt under.mp twoLines⟩

end Report

end CommandLine

end PrefixArith
