import PrefixArith.Calculator
import PrefixArith.CommandLine.Options
import PrefixArith.Text.Basic

/-!
# Reports of the command line

A run evaluates its jobs in order, the expressions among its arguments or the lines of its input,
and prints one line for each result. The first job that fails ends it with a message; where the
fault has a position, the expression follows with a caret below the character at fault.

A run can keep a log of what it does, which tells the time of day and is left open here: it is given
to the run, which writes it before its message if it is verbose.
-/

namespace PrefixArith

namespace CommandLine

/-- What a run leaves behind: its exit code and the texts of its two output channels. -/
structure Report where
  code : Nat
  output : String
  errors : String
  deriving DecidableEq

/-- One piece of work of a run. -/
inductive Job where
  | expression (text : String)
  /-- A line of the input that is not UTF-8. -/
  | unreadable
  deriving DecidableEq

namespace Job

def lineFeed : UInt8 := 10

def carriageReturn : UInt8 := 13

/-- A line without the carriage return at its end. -/
def dropReturn (line : List UInt8) : List UInt8 :=
  if line.getLast? = some carriageReturn then line.dropLast else line

/-- The lines of an input. A line that a line feed ends may have a carriage return before it. -/
def lines (input : List UInt8) : List (List UInt8) :=
  match input with
  | [] => []
  | first :: rest =>
      let line := (first :: rest).takeWhile (· != lineFeed)
      match _ended : (first :: rest).dropWhile (· != lineFeed) with
      | [] => [line]
      | _ :: after => dropReturn line :: lines after
  termination_by input.length
  decreasing_by
    have shorter := (List.dropWhile_suffix (l := first :: rest) (· != lineFeed)).length_le
    rw [_ended] at shorter
    exact shorter

/-- The job of a line, unless the line is blank. -/
def ofLine? (line : List UInt8) : Option Job :=
  match String.fromUTF8? ⟨line.toArray⟩ with
  | none => some unreadable
  | some text => if text.toList.all Text.isBlank then none else some (expression text)

/-- The jobs of a run: the expressions among its arguments, or the lines of its input. -/
def all (expressions : List String) (input : List UInt8) : List Job :=
  if expressions.isEmpty then (lines input).filterMap ofLine? else expressions.map expression

end Job

/-- The line of a result. -/
def resultLine (json : Bool) (value : Value) : String :=
  String.ofList (if json then value.json else value.text) ++ "\n"

/-- An expression and a caret under the character at a position, each on a line of its own. -/
def caretLines (expression : String) (position : Nat) : String :=
  match Text.column? expression.toList position with
  | none => ""
  | some column =>
      "  " ++ expression ++ "\n  " ++ String.ofList (List.replicate column ' ') ++ "^\n"

namespace Report

/-- The end of a run that fails, with the expression that failed if there is one. -/
def ofFailure (failure : Failure) (expression : Option String) : Report where
  code := 1
  output := ""
  errors :=
    "Error: " ++ failure.message ++ "\n" ++
      match expression, failure.position? with
      | some text, some position => caretLines text position
      | _, _ => ""

/-- The report with a line of output before it. -/
def after (line : String) (report : Report) : Report :=
  { report with output := line ++ report.output }

/-- The report with a log before its errors. -/
def withLog (log : String) (report : Report) : Report :=
  { report with errors := log ++ report.errors }

/-- The report on jobs that a calculator does in order. -/
def ofJobs (calculator : Calculator) (json : Bool) : List Job → Report
  | [] => ⟨0, "", ""⟩
  | .unreadable :: _ => ofFailure .input none
  | .expression text :: rest =>
      match calculator.evaluate text with
      | .error failure => ofFailure failure (some text)
      | .ok value => after (resultLine json value) (ofJobs calculator json rest)

/--
The report on a run, given what is at the path of its settings file, its input, and the log of what
it does once it has its settings.
-/
def ofRun (options : Options) (settings : Settings.File) (input : List UInt8) (log : String) :
    Report :=
  match Settings.ofFileOrStandard settings with
  | .error fault => ofFailure (.settings fault) none
  | .ok settings =>
      withLog (options.written log)
        (ofJobs ⟨settings⟩ options.json (Job.all options.expressions input))

/-- The usage of the command. -/
def usage : String := "Usage: sexp-eval [OPTIONS] [EXPRESSIONS]...\n"

/-- The description of the command. -/
def help : String :=
  usage ++ "\n" ++
  "Arguments:\n" ++
  "  [EXPRESSIONS]...  Expressions to evaluate, e.g. \"(+ 1 (max 2 3))\". " ++
  "Read line by line from stdin when omitted\n\n" ++
  "Options:\n" ++
  "  -c, --config <CONFIG>  Path to config file [default: " ++ Options.standardPath ++ "]\n" ++
  "      --json             Print results as JSON\n" ++
  "  -v, --verbose          Enable debug mode\n" ++
  "  -h, --help             Print help\n" ++
  "  -V, --version          Print version\n"

/-- The name and version of the command. -/
def version : String := "sexp-eval 0.1.0\n"

/-- The report on arguments that are refused. -/
def ofMisuse (misuse : Misuse) : Report where
  code := 2
  output := ""
  errors :=
    "error: " ++ misuse.message ++ "\n\n" ++ usage ++ "\nFor more information, try '--help'.\n"

/-- The report on a command, given what is at a path, its input and its log. -/
def ofCommand (arguments : List String) (file : String → Settings.File) (input : List UInt8)
    (log : String) : Report :=
  match request arguments with
  | .error misuse => ofMisuse misuse
  | .ok .help => ⟨0, help, ""⟩
  | .ok .version => ⟨0, version, ""⟩
  | .ok (.run options) => ofRun options (file options.path) input log

end Report

end CommandLine

end PrefixArith
