import PrefixArith.Proofs.CommandLine.Lines
import PrefixArith.Proofs.Expr.Culprit
import PrefixArith.Proofs.Settings.Message

/-!
# Runs

A run that has no settings says why and does nothing else. Any other run does its jobs in order and
prints one line for the value of each, up to the first job that fails. The error channel then tells
of this job alone, and the jobs after it have no part in the report.
-/

namespace PrefixArith

namespace Settings

/-- The settings of a run, given what is at the path of its settings file. -/
inductive InForce : File → Settings → Prop where
  | standard : InForce .absent standard
  | held {file : File} {settings : Settings} (read : ofFile file = .ok settings) :
      InForce file settings

theorem ofFileOrStandard_eq_ok_iff {file : File} {settings : Settings} :
    ofFileOrStandard file = .ok settings ↔ InForce file settings := by
  constructor
  · intro found
    cases file with
    | absent =>
        cases found
        exact .standard
    | locked => cases found
    | directory => cases found
    | content bytes place => exact .held found
  · intro inForce
    cases inForce with
    | standard => rfl
    | held read =>
        cases file with
        | absent => cases read
        | locked => cases read
        | directory => cases read
        | content bytes place => exact read

theorem ofFileOrStandard_eq_error_iff {file : File} {fault : Fault} :
    ofFileOrStandard file = .error fault ↔ file ≠ .absent ∧ ofFile file = .error fault := by
  cases file <;> simp [ofFileOrStandard]

end Settings

/-- A text of one atom is read as what the atom stands for. -/
theorem Calculator.read_of_atom {calculator : Calculator} {text word : String} {start stop : Nat}
    (divided : Lexeme.readFrom 0 text.toList = .ok [⟨.atom word, start, stop⟩]) :
    calculator.read text = Expr.ofAtom word start := by
  have division := Lexeme.readFrom_eq_ok_iff.mp divided
  cases stands : Expr.ofAtom word start with
  | ok leaf =>
      obtain ⟨flat, anywhere⟩ := Expr.ofAtom_eq_ok stands
      have shallow : leaf.depth ≤ calculator.settings.maxDepth := flat ▸ Nat.zero_le _
      exact Expr.Spelling.read_eq division (.leaf anywhere) shallow
  | error fault =>
      rw [Calculator.read, Expr.read_eq division, if_neg (List.cons_ne_nil _ _),
        Expr.ofLexemes_eq_error_iff, Expr.ofAtom_eq_error stands]
      refine Expr.single_error_of_firstFault? (Expr.Scan.Stops.firstFault?_eq ?_)
      rw [List.drop_zero, Expr.Scan.run_cons, Expr.Scan.step_atom_unknown rfl stands]
      exact .lexeme _

namespace CommandLine

open Text (IsLine)

namespace Job

/-! ## Jobs -/

/-- What a calculator makes of a job. -/
def outcome (calculator : Calculator) : Job → Except Failure Value
  | expression text => calculator.evaluate text
  | unreadable => .error .input

/-- A job has a value. -/
def Gives (calculator : Calculator) (job : Job) (value : Value) : Prop :=
  job.outcome calculator = .ok value

/-- The text of a job, unless it cannot be read. -/
def text? : Job → Option String
  | expression text => some text
  | unreadable => none

/-- The jobs that the expressions of a run, or else its input, hold. -/
inductive Due : List String → List UInt8 → List Job → Prop where
  | given {expressions : List String} (nonempty : expressions ≠ []) (unread : List UInt8) :
      Due expressions unread (expressions.map expression)
  | read {input : List UInt8} {found : List (List UInt8)} (lined : Lined input found) :
      Due [] input (found.filterMap ofLine?)

theorem Due.all_eq {expressions : List String} {input : List UInt8} {jobs : List Job}
    (due : Due expressions input jobs) : all expressions input = jobs := by
  cases due with
  | given nonempty => exact all_of_ne_nil nonempty input
  | read lined => rw [all_nil, lined.lines_eq]

theorem due_all (expressions : List String) (input : List UInt8) :
    Due expressions input (all expressions input) := by
  cases expressions with
  | nil => exact .read (lined_lines input)
  | cons first rest => exact .given (List.cons_ne_nil first rest) input

/--
What the error channel says of a job that fails: a message, and below it the text of the job and a
caret when the text is at fault at some place.
-/
inductive Complaint : Job → Failure → String → Prop where
  | placed {text before after : String} {fault : Malformed} (cut : text = before ++ after)
      (position : fault.position? = some before.utf8ByteSize) :
      Complaint (expression text) (.reading fault)
        ("Error: " ++ (Failure.reading fault).message ++ "\n" ++ ("  " ++ text ++ "\n  " ++
          String.ofList (List.replicate before.length ' ') ++ "^\n"))
  | unplaced {job : Job} {failure : Failure} (nowhere : failure.position? = none) :
      Complaint job failure ("Error: " ++ failure.message ++ "\n")

variable {calculator : Calculator} {job : Job} {failure : Failure} {errors : String}

/-- A job that fails is complained about. -/
theorem complaint_ofFailure (failed : job.outcome calculator = .error failure) :
    Complaint job failure (Report.ofFailure failure job.text?).errors := by
  cases position : failure.position? with
  | none =>
      have single : (Report.ofFailure failure job.text?).errors =
          "Error: " ++ failure.message ++ "\n" := by
        simp [Report.ofFailure, position]
      rw [single]
      exact .unplaced position
  | some place =>
      cases failure with
      | reading fault =>
          cases job with
          | unreadable => cases failed
          | expression text =>
              have located := Malformed.Located.of_read (Calculator.read_of_evaluate failed)
              obtain ⟨-, before, after, cut, size, -, caret⟩ := located.somewhere place position
              have whole : (Report.ofFailure (.reading fault) (some text)).errors =
                  "Error: " ++ (Failure.reading fault).message ++ "\n" ++
                    caretLines text place := by
                simp [Report.ofFailure, position]
              rw [text?, whole, caret]
              exact .placed cut (size ▸ position)
      | evaluation fault => cases position
      | settings fault => cases position
      | input => cases position

/-- There is one way to complain about a job. -/
theorem Complaint.errors_eq (complaint : Complaint job failure errors) :
    (Report.ofFailure failure job.text?).errors = errors := by
  cases complaint with
  | @placed text before after fault cut position =>
      have place : (Failure.reading fault).position? = some before.utf8ByteSize := position
      have column : Text.column? text.toList before.utf8ByteSize = some before.length := by
        rw [cut, String.toList_append, Text.utf8ByteSize_eq_size, Text.column?_append,
          String.length_toList]
      simp only [Report.ofFailure, text?, place, caretLines, column]
  | unplaced nowhere => simp [Report.ofFailure, nowhere]

end Job

namespace Report

/-! ## Outputs -/

/-- An output holds values in order, each in its text or its JSON text and on a line of its own. -/
inductive Prints (json : Bool) : List Value → String → Prop where
  | none : Prints json [] ""
  | next {value : Value} {values : List Value} {line rest : String}
      (shown : line.toList = if json then value.json else value.text)
      (isLine : IsLine line.toList) (others : Prints json values rest) :
      Prints json (value :: values) (line ++ "\n" ++ rest)

variable {calculator : Calculator} {json : Bool}

theorem exists_prints (json : Bool) (values : List Value) : ∃ output, Prints json values output := by
  induction values with
  | nil => exact ⟨"", .none⟩
  | cons value values ih =>
      obtain ⟨output, printed⟩ := ih
      have shown := String.toList_ofList (l := if json then value.json else value.text)
      refine ⟨_, .next shown ?_ printed⟩
      rw [shown]
      split
      · exact value.isLine_json
      · exact value.isLine_text

theorem resultLine_eq {value : Value} {line : String}
    (shown : line.toList = if json then value.json else value.text) :
    resultLine json value = line ++ "\n" := by
  rw [resultLine, ← shown, String.ofList_toList]

/-! ## One job -/

theorem ofJobs_cons_ok {job : Job} {value : Value} (gives : job.Gives calculator value)
    (rest : List Job) :
    ofJobs calculator json (job :: rest) =
      after (resultLine json value) (ofJobs calculator json rest) := by
  cases job with
  | unreadable => cases gives
  | expression text =>
      have evaluated : calculator.evaluate text = .ok value := gives
      rw [ofJobs, evaluated]

theorem ofJobs_cons_error {job : Job} {failure : Failure}
    (failed : job.outcome calculator = .error failure) (rest : List Job) :
    ofJobs calculator json (job :: rest) = ofFailure failure job.text? := by
  cases job with
  | unreadable =>
      cases failed
      rfl
  | expression text =>
      have evaluated : calculator.evaluate text = .error failure := failed
      rw [ofJobs, evaluated]
      rfl

/-! ## Many jobs -/

/-- Jobs that have values put their lines before the report on the jobs that follow. -/
theorem Prints.ofJobs_append {values : List Value} {output : String}
    (printed : Prints json values output) {jobs : List Job}
    (done : List.Forall₂ (Job.Gives calculator) jobs values) (rest : List Job) :
    ofJobs calculator json (jobs ++ rest) = after output (ofJobs calculator json rest) := by
  induction printed generalizing jobs with
  | none =>
      cases done
      simp [after]
  | next shown isLine others ih =>
      cases done with
      | cons gives done =>
          rw [List.cons_append, ofJobs_cons_ok gives, ih done, resultLine_eq shown]
          simp [after, String.append_assoc]

/-- Either all jobs have values or there is a first that fails. -/
theorem all_give_or_first_fails (calculator : Calculator) (jobs : List Job) :
    (∃ values, List.Forall₂ (Job.Gives calculator) jobs values) ∨
      ∃ (before : List Job) (job : Job) (later : List Job) (values : List Value)
        (failure : Failure),
        jobs = before ++ job :: later ∧ List.Forall₂ (Job.Gives calculator) before values ∧
          job.outcome calculator = .error failure := by
  induction jobs with
  | nil => exact .inl ⟨[], .nil⟩
  | cons first rest ih =>
      cases outcome : first.outcome calculator with
      | error failure => exact .inr ⟨[], first, rest, [], failure, rfl, .nil, outcome⟩
      | ok value =>
          rcases ih with ⟨values, done⟩ | ⟨before, job, later, values, failure, cut, done, failed⟩
          · exact .inl ⟨value :: values, .cons outcome done⟩
          · exact .inr ⟨first :: before, job, later, value :: values, failure, by rw [cut]; rfl,
              .cons outcome done, failed⟩

/--
The report on jobs that are done in order. All have values, or the first that fails ends the run with
a complaint about it, after the values of the jobs before it.
-/
inductive On (calculator : Calculator) (json : Bool) : List Job → Report → Prop where
  | finished {jobs : List Job} {values : List Value} {output : String}
      (done : List.Forall₂ (Job.Gives calculator) jobs values)
      (printed : Prints json values output) : On calculator json jobs ⟨0, output, ""⟩
  | stopped {before : List Job} {job : Job} {failure : Failure} {values : List Value}
      {output errors : String} (done : List.Forall₂ (Job.Gives calculator) before values)
      (printed : Prints json values output) (failed : job.outcome calculator = .error failure)
      (complaint : job.Complaint failure errors) (later : List Job) :
      On calculator json (before ++ job :: later) ⟨1, output, errors⟩

theorem ofJobs_finished {jobs : List Job} {values : List Value} {output : String}
    (done : List.Forall₂ (Job.Gives calculator) jobs values)
    (printed : Prints json values output) :
    ofJobs calculator json jobs = ⟨0, output, ""⟩ := by
  have ran := printed.ofJobs_append done []
  rw [List.append_nil] at ran
  rw [ran, ofJobs, after, String.append_empty]

theorem ofJobs_stopped {before : List Job} {job : Job} {failure : Failure} {values : List Value}
    {output : String} (done : List.Forall₂ (Job.Gives calculator) before values)
    (printed : Prints json values output) (failed : job.outcome calculator = .error failure)
    (later : List Job) :
    ofJobs calculator json (before ++ job :: later) =
      ⟨1, output, (ofFailure failure job.text?).errors⟩ := by
  have ended : after output (ofFailure failure job.text?) =
      ⟨1, output ++ "", (ofFailure failure job.text?).errors⟩ := rfl
  rw [printed.ofJobs_append done, ofJobs_cons_error failed, ended, String.append_empty]

/-- Jobs have one report in this sense, the one that comes of doing them in order. -/
theorem on_iff {jobs : List Job} {report : Report} :
    On calculator json jobs report ↔ ofJobs calculator json jobs = report := by
  constructor
  · intro on
    cases on with
    | finished done printed => exact ofJobs_finished done printed
    | stopped done printed failed complaint later =>
        rw [ofJobs_stopped done printed failed, complaint.errors_eq]
  · rintro rfl
    rcases all_give_or_first_fails calculator jobs with
      ⟨values, done⟩ | ⟨before, job, later, values, failure, rfl, done, failed⟩
    · obtain ⟨output, printed⟩ := exists_prints json values
      rw [ofJobs_finished done printed]
      exact .finished done printed
    · obtain ⟨output, printed⟩ := exists_prints json values
      rw [ofJobs_stopped done printed failed]
      exact .stopped done printed failed (Job.complaint_ofFailure failed) later

/-- Jobs after one that fails have no part in the report. -/
theorem ofJobs_append_fails {job : Job} {failure : Failure}
    (failed : job.outcome calculator = .error failure) (before later others : List Job) :
    ofJobs calculator json (before ++ job :: later) =
      ofJobs calculator json (before ++ job :: others) := by
  induction before with
  | nil =>
      rw [List.nil_append, List.nil_append, ofJobs_cons_error failed, ofJobs_cons_error failed]
  | cons first rest ih =>
      cases outcome : first.outcome calculator with
      | ok value =>
          rw [List.cons_append, List.cons_append, ofJobs_cons_ok outcome, ofJobs_cons_ok outcome, ih]
      | error failure =>
          rw [List.cons_append, List.cons_append, ofJobs_cons_error outcome,
            ofJobs_cons_error outcome]

/-! ## Whole runs -/

@[simp]
theorem withLog_empty (report : Report) : withLog "" report = report := by
  rw [withLog, String.empty_append]

/-- A run on jobs with settings, as some arguments ask for it without a log. -/
inductive Runs (arguments : List String) (file : String → Settings.File) (input : List UInt8) :
    Settings → Bool → List Job → Prop where
  | asked {options : Options} {settings : Settings} {jobs : List Job}
      (asked : request arguments = .ok (.run options)) (quiet : options.verbose = false)
      (inForce : Settings.InForce (file options.path) settings)
      (due : Job.Due options.expressions input jobs) :
      Runs arguments file input settings options.json jobs

variable {arguments : List String} {file : String → Settings.File} {input : List UInt8}

/-- A run reports on its jobs, behind its log. -/
theorem ofCommand_eq {options : Options} (asked : request arguments = .ok (.run options))
    {settings : Settings} (inForce : Settings.InForce (file options.path) settings)
    {jobs : List Job} (due : Job.Due options.expressions input jobs) (log : String) :
    ofCommand arguments file input log =
      withLog (options.written log) (ofJobs ⟨settings⟩ options.json jobs) := by
  simp only [ofCommand, asked, ofRun, Settings.ofFileOrStandard_eq_ok_iff.mpr inForce, due.all_eq]

/-- A run that writes no log reports on its jobs. -/
theorem Runs.ofCommand_eq {settings : Settings} {jobs : List Job}
    (runs : Runs arguments file input settings json jobs) (log : String) :
    ofCommand arguments file input log = ofJobs ⟨settings⟩ json jobs := by
  cases runs with
  | asked asked quiet inForce due =>
      rw [Report.ofCommand_eq asked inForce due, Options.written, quiet,
        if_neg Bool.false_ne_true, withLog_empty]

/-- A run without settings reports the fault of its settings file and does no job. -/
theorem ofCommand_of_fault {options : Options} (asked : request arguments = .ok (.run options))
    {fault : Settings.Fault} (failed : Settings.ofFileOrStandard (file options.path) = .error fault)
    (log : String) :
    ofCommand arguments file input log =
      ⟨1, "", "Error: " ++ (Failure.settings fault).message ++ "\n"⟩ := by
  simp [ofCommand, asked, ofRun, failed, ofFailure]

/--
The report on a run that is not verbose. When its settings file exists but holds no settings, the run
prints nothing, and the error channel has one line. Otherwise it reports on its jobs in order up to
the first that fails, and it does not depend on what follows this job: any run with the same settings,
the same kind of results and the same jobs up to this one has the same report.
-/
theorem ofCommand_first_failure {options : Options}
    (asked : request arguments = .ok (.run options)) (quiet : options.verbose = false)
    (file : String → Settings.File) (input : List UInt8) (log : String) :
    (∀ fault, file options.path ≠ .absent →
      Settings.ofFile (file options.path) = .error fault →
        IsLine (Failure.settings fault).message.toList ∧
          ofCommand arguments file input log =
            ⟨1, "", "Error: " ++ (Failure.settings fault).message ++ "\n"⟩) ∧
      ∀ settings, Settings.InForce (file options.path) settings →
        ∃ jobs, Job.Due options.expressions input jobs ∧
          On ⟨settings⟩ options.json jobs (ofCommand arguments file input log) ∧
            ∀ before job later failure, jobs = before ++ job :: later →
              job.outcome ⟨settings⟩ = .error failure →
                ∀ others arguments' file' input' log',
                  Runs arguments' file' input' settings options.json (before ++ job :: others) →
                    ofCommand arguments' file' input' log' =
                      ofCommand arguments file input log := by
  constructor
  · intro fault present refused
    have failed := Settings.ofFileOrStandard_eq_error_iff.mpr ⟨present, refused⟩
    have start : IsLine "Config error: ".toList := by decide
    exact ⟨start.toList_append (Settings.Fault.isLine_message_of_file failed),
      ofCommand_of_fault asked failed log⟩
  · intro settings inForce
    have due := Job.due_all options.expressions input
    have ran := (Runs.asked asked quiet inForce due).ofCommand_eq log
    refine ⟨_, due, on_iff.mpr ran.symm, ?_⟩
    intro before job later failure cut failed others arguments' file' input' log' runs
    rw [runs.ofCommand_eq, ran, cut]
    exact ofJobs_append_fails failed before others later

theorem ofCommand_first_failure_unknown :
    let given := ["--json", "0", "foo", "1"]
    request given = .ok (.run ⟨["0", "foo", "1"], none, true, false⟩) ∧
      IsLine (Failure.settings .isDirectory).message.toList ∧
      ofCommand given (fun _ => .directory) [] "" =
        ⟨1, "", "Error: " ++ (Failure.settings .isDirectory).message ++ "\n"⟩ ∧
      On .standard true [.expression "0", .expression "foo", .expression "1"]
        (ofCommand given (fun _ => .absent) [] "") ∧
      ofCommand given (fun _ => .absent) [] "" =
        ⟨1, "0.0\n", "Error: Parsing failed: Unknown token: foo\n  foo\n  ^\n"⟩ ∧
      ofCommand ["--json"] (fun _ => .absent) [48, 10, 102, 111, 111, 10, 255] "" =
        ofCommand given (fun _ => .absent) [] "" := by
  intro given
  have asked : request given = .ok (.run ⟨["0", "foo", "1"], none, true, false⟩) := rfl
  have askedBare : request ["--json"] = .ok (.run ⟨[], none, true, false⟩) := rfl
  obtain ⟨isLine, refused⟩ :=
    (ofCommand_first_failure asked rfl (fun _ => .directory) [] "").1 .isDirectory nofun rfl
  obtain ⟨jobs, due, on, later⟩ :=
    (ofCommand_first_failure asked rfl (fun _ => .absent) [] "").2 _ .standard
  have jobs_eq : jobs = [.expression "0", .expression "foo", .expression "1"] := due.all_eq.symm
  have zero : Lexeme.readFrom 0 "0".toList = .ok [⟨.atom "0", 0, 1⟩] := by decide +kernel
  have foo : Lexeme.readFrom 0 "foo".toList = .ok [⟨.atom "foo", 0, 3⟩] := by decide +kernel
  have gives : (Job.expression "0").outcome .standard = .ok (.number .zero) := by
    rw [Job.outcome, Calculator.evaluate, Calculator.read_of_atom zero]
    rfl
  have failed : (Job.expression "foo").outcome .standard =
      .error (.reading (.unknownAtom "foo" 0)) := by
    rw [Job.outcome, Calculator.evaluate, Calculator.read_of_atom foo]
    rfl
  have bytes : Job.all [] [48, 10, 102, 111, 111, 10, 255] =
      [.expression "0", .expression "foo", .unreadable] := by
    decide +kernel
  have runs : Runs ["--json"] (fun _ => .absent) [48, 10, 102, 111, 111, 10, 255] .standard true
      [.expression "0", .expression "foo", .unreadable] :=
    .asked askedBare rfl .standard (bytes ▸ Job.due_all [] _)
  have shown : ofCommand given (fun _ => .absent) [] "" =
      ⟨1, "0.0\n", "Error: Parsing failed: Unknown token: foo\n  foo\n  ^\n"⟩ := by
    have ran : ofCommand given (fun _ => .absent) [] "" = ofJobs .standard true jobs :=
      on_iff.mp on |>.symm
    rw [ran, jobs_eq, ofJobs_cons_ok gives, ofJobs_cons_error failed]
    decide
  exact ⟨asked, isLine, refused, jobs_eq ▸ on, shown,
    later [.expression "0"] _ [.expression "1"] _ jobs_eq failed [.unreadable] _ _ _ _ runs⟩

/--
A carriage return at the end of a last line that no line feed ends belongs to the job, which is
complained about with the carriage return in its text.
-/
theorem not_on_last_line_without_return :
    let input : List UInt8 := [102, 111, 111, 13]
    request [] = .ok (.run ⟨[], none, false, false⟩) ∧
      ((input.splitOn Job.lineFeed).map Job.dropReturn).filterMap Job.ofLine? =
        [.expression "foo"] ∧
      ¬ On .standard false [.expression "foo"] (ofCommand [] (fun _ => .absent) input "") := by
  intro input
  have foo : Lexeme.readFrom 0 "foo".toList = .ok [⟨.atom "foo", 0, 3⟩] := by decide +kernel
  have fooReturn : Lexeme.readFrom 0 "foo\r".toList = .ok [⟨.atom "foo", 0, 3⟩] := by
    decide +kernel
  have without : (Job.expression "foo").outcome .standard =
      .error (.reading (.unknownAtom "foo" 0)) := by
    rw [Job.outcome, Calculator.evaluate, Calculator.read_of_atom foo]
    rfl
  have withReturn : (Job.expression "foo\r").outcome .standard =
      .error (.reading (.unknownAtom "foo" 0)) := by
    rw [Job.outcome, Calculator.evaluate, Calculator.read_of_atom fooReturn]
    rfl
  have jobs : Job.all [] input = [.expression "foo\r"] := by decide +kernel
  have asked : request [] = .ok (.run ⟨[], none, false, false⟩) := rfl
  have runs : Runs [] (fun _ => .absent) input .standard false [.expression "foo\r"] :=
    .asked asked rfl .standard (jobs ▸ Job.due_all [] input)
  refine ⟨asked, by decide, ?_⟩
  rw [on_iff, runs.ofCommand_eq, ofJobs_cons_error without]
  rw [show (⟨.standard⟩ : Calculator) = .standard from rfl, ofJobs_cons_error withReturn]
  decide

end Report

end CommandLine

end PrefixArith
