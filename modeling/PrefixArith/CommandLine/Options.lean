/-!
# Options of the command line

Arguments are options, which start with a hyphen, and expressions. Options may follow expressions
and may be given once each; a lone hyphen is an expression, and two hyphens make expressions of all
arguments after them. Arguments are taken from left to right up to the first that is misused or that
asks for a text about the program.
-/

namespace PrefixArith

namespace CommandLine

/-- What the arguments ask for. -/
structure Options where
  expressions : List String
  settingsPath : Option String
  json : Bool
  verbose : Bool

/-- A run on expressions, or a text about the program. -/
inductive Request where
  | run (options : Options)
  | help
  | version

/-- The reason why arguments are refused. -/
inductive Misuse where
  | unknownOption (argument : String)
  | repeatedOption (name : String)
  | missingValue (name : String)
  | unwantedValue (name : String)

namespace Misuse

def message : Misuse → String
  | unknownOption argument => "unexpected argument '" ++ argument ++ "' found"
  | repeatedOption name => "the argument '" ++ name ++ "' cannot be used multiple times"
  | missingValue name => "a value is required for '" ++ name ++ "' but none was supplied"
  | unwantedValue name => "unexpected value for '" ++ name ++ "' found; no more were expected"

end Misuse

namespace Options

/-- The options without arguments. -/
def empty : Options := ⟨[], none, false, false⟩

/-- The settings file that is looked for when no option names one. -/
def standardPath : String := "sexp-eval.json"

/-- The path of the settings file. -/
def path (options : Options) : String :=
  options.settingsPath.getD standardPath

/-- What a run writes of its log: all of it if it is verbose, and nothing otherwise. -/
def written (options : Options) (log : String) : String :=
  if options.verbose then log else ""

def withExpressions (options : Options) (expressions : List String) : Options :=
  { options with expressions := options.expressions ++ expressions }

def withPath (options : Options) (path : String) : Except Misuse Options :=
  if path.isEmpty then .error (.missingValue "--config <CONFIG>")
  else if options.settingsPath.isSome then .error (.repeatedOption "--config <CONFIG>")
  else .ok { options with settingsPath := some path }

def withJson (options : Options) : Except Misuse Options :=
  if options.json then .error (.repeatedOption "--json")
  else .ok { options with json := true }

def withVerbose (options : Options) : Except Misuse Options :=
  if options.verbose then .error (.repeatedOption "--verbose")
  else .ok { options with verbose := true }

end Options

/-- What is left to do after an argument. -/
inductive Step where
  /-- The options so far hold, and the next argument is looked at. -/
  | continue (options : Options)
  /-- The next argument is the path of the settings file. -/
  | takePath (options : Options)
  /-- The arguments ask for something else than a run. -/
  | stop (request : Request)

/-- Whether an argument is an option, so that it cannot be the value of one. -/
def isOption (argument : List Char) : Bool :=
  match argument with
  | '-' :: _ :: _ => true
  | _ => false

/-- Takes the letters after one hyphen; a path takes all letters that follow its own. -/
def letters (options : Options) : List Char → Except Misuse Step
  | [] => .ok (.continue options)
  | 'v' :: rest =>
      match options.withVerbose with
      | .error misuse => .error misuse
      | .ok options => letters options rest
  | ['c'] => .ok (.takePath options)
  | 'c' :: '=' :: path => (options.withPath (String.ofList path)).map .continue
  | 'c' :: path => (options.withPath (String.ofList path)).map .continue
  | 'h' :: _ => .ok (.stop .help)
  | 'V' :: _ => .ok (.stop .version)
  | letter :: _ => .error (.unknownOption (String.ofList ['-', letter]))

/-- Takes the name after two hyphens, with the value that an equals sign gives it. -/
def long (options : Options) (argument : List Char) : Except Misuse Step :=
  let name := String.ofList (argument.takeWhile (· != '='))
  let value :=
    match argument.dropWhile (· != '=') with
    | [] => none
    | _ :: value => some (String.ofList value)
  match name, value with
  | "json", none => options.withJson.map .continue
  | "verbose", none => options.withVerbose.map .continue
  | "config", none => .ok (.takePath options)
  | "config", some path => (options.withPath path).map .continue
  | "help", none => .ok (.stop .help)
  | "version", none => .ok (.stop .version)
  | _, none => .error (.unknownOption ("--" ++ name))
  | _, some _ =>
      if ["json", "verbose", "help", "version"].contains name then
        .error (.unwantedValue ("--" ++ name))
      else .error (.unknownOption ("--" ++ name))

/-- Takes one argument other than the two hyphens that end the options. -/
def step (options : Options) (argument : List Char) : Except Misuse Step :=
  match argument with
  | '-' :: '-' :: name => long options name
  | '-' :: first :: rest => letters options (first :: rest)
  | _ => .ok (.continue (options.withExpressions [String.ofList argument]))

/-- Takes arguments from left to right, after the options so far. -/
def requestFrom (options : Options) : List String → Except Misuse Request
  | [] => .ok (.run options)
  | argument :: rest =>
      if argument = "--" then .ok (.run (options.withExpressions rest))
      else
        match step options argument.toList with
        | .error misuse => .error misuse
        | .ok (.stop request) => .ok request
        | .ok (.continue options) => requestFrom options rest
        | .ok (.takePath options) =>
            match rest with
            | [] => .error (.missingValue "--config <CONFIG>")
            | path :: others =>
                if isOption path.toList then .error (.missingValue "--config <CONFIG>")
                else
                  match options.withPath path with
                  | .error misuse => .error misuse
                  | .ok options => requestFrom options others

/-- What the arguments of a command ask for. -/
def request (arguments : List String) : Except Misuse Request :=
  requestFrom .empty arguments

end CommandLine

end PrefixArith
