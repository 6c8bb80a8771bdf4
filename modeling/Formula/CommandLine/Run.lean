import Formula.CommandLine.Arguments
import Formula.CommandLine.Log

/-!
Runs of the program. A run is a function of its arguments, of the log filter in its environment,
and of the files that can be read; its result is all that the program writes, and its exit code.
-/

namespace Formula.CommandLine

structure Report where
  exitCode : Nat
  output : String
  notices : List String
  log : List String
  failure : Option Diagnostic
  deriving Repr

namespace Report

def misuseCode : Nat := 2

/-- The exit code of a run whose file or bindings cannot be read. -/
def inputCode : Nat := 1

/-- The exit code of a run whose source is no expression. -/
def compileCode : Nat := 65

/-- The exit code of a run whose expression has no value. -/
def evalCode : Nat := 70

def success (output : String) (log : List String) : Report := ⟨0, output, [], log, none⟩

/-- A run that fails before it has written anything but its log. -/
def fail (exitCode : Nat) (failure : Diagnostic) (log : List String) : Report :=
  ⟨exitCode, "", [], log, some failure⟩

@[simp] theorem exitCode_success (output : String) (log : List String) :
    (success output log).exitCode = 0 := rfl

@[simp] theorem exitCode_fail (exitCode : Nat) (failure : Diagnostic) (log : List String) :
    (fail exitCode failure log).exitCode = exitCode := rfl

end Report

def notices (e : ScanError) : List String :=
  match e.problem with
  | .illegalCharacter c => ["Error: Unexpected character: " ++ String.singleton c]
  | .unterminated _ => ["Error: Unterminated string"]
  | _ => []

/-- The line of a token in a printed token stream; the last one stands without its position. -/
def tokenLine (t : Token) : String :=
  if t.kind = .eof then t.display ++ "\n"
  else t.display ++ " @" ++ Nat.repr t.position ++ "\n"

/-- Prints the tokens of a source, those in front of a fault included. -/
def runTokenize (source : String) : Report :=
  match tokenize source with
  | (ts, none) => .success (String.join (ts.map tokenLine)) []
  | (ts, some e) =>
    ⟨Report.compileCode, String.join (ts.map tokenLine), notices e, [], some e.diagnostic⟩

def runParse (verbosity : Verbosity) (source : String) : Report :=
  let log := Event.lines verbosity (Event.ofCompile source)
  match compile source with
  | .error e => .fail Report.compileCode e.diagnostic log
  | .ok e => .success (e.display ++ "\n") log

/-- A result as it is printed: as JSON, or the value with its category in parentheses. -/
def resultLine (json : Bool) (result : Annotation) : String :=
  if json then
    Json.text (.object [("type", .string result.category.name),
      ("value", result.value.elim .null Value.toJson)]) ++ "\n"
  else result.value.elim "null" Value.display ++ " (" ++ result.category.name ++ ")\n"

/-- The bindings of an evaluation: the members of the object, if one is given, and then the pairs,
of which the last of a name counts. -/
def EvalSettings.bindings? (settings : EvalSettings) : Option Bindings :=
  let pairs := settings.params.map fun (name, j) => (name, Parameter.json j)
  match settings.members with
  | none => some (Bindings.empty.append pairs)
  | some text => (Json.parseObject? text).map fun members => (Bindings.ofMembers members).append pairs

def runEval (verbosity : Verbosity) (settings : EvalSettings) (source : String) : Report :=
  match settings.bindings? with
  | none => .fail Report.inputCode ⟨"`--params` must be a JSON object", none, none⟩ []
  | some b =>
    let events := Event.ofCompile source
    match compile source with
    | .error e => .fail Report.compileCode e.diagnostic (Event.lines verbosity events)
    | .ok e =>
      let events := events ++ Event.ofEval b e
      match e.eval b with
      | ⟨_, some failure⟩ =>
        .fail Report.evalCode failure.diagnostic (Event.lines verbosity events)
      | ⟨result, none⟩ =>
        .success (resultLine settings.json result.note)
          (Event.lines verbosity (events ++ [.evaluated result.note.category]))

def Action.run (verbosity : Verbosity) (source : String) : Action → Report
  | .tokenize => runTokenize source
  | .parse => runParse verbosity source
  | .eval settings => runEval verbosity settings source

def Origin.read? (readFile : String → Option String) : Origin → Option String
  | .text expression => some expression
  | .file path => readFile path

def versionText : String := programName ++ " 0.1.0\n"

def filterVariable : String := "RUST_LOG"

def helpText : String :=
  "Compile and evaluate rule expressions\n\nUsage: " ++ programName ++
    " [OPTIONS] <COMMAND>\n\nCommands:\n" ++
    "  tokenize  Print the token stream\n" ++
    "  parse     Print the compiled tree\n" ++
    "  eval      Evaluate against parameters\n" ++
    "  help      Print this message or the help of the given subcommand(s)\n\nOptions:\n" ++
    "  -v, --verbose  Log pipeline stages (overridden by " ++ filterVariable ++ ")\n" ++
    "  -h, --help     Print help\n" ++
    "  -V, --version  Print version\n"

def Request.run (filter : Option String) (readFile : String → Option String) (r : Request) :
    Report :=
  match r.origin.read? readFile with
  | none => .fail Report.inputCode ⟨"the expression cannot be read", none, none⟩ []
  | some source => r.action.run (Verbosity.ofSettings filter r.verbose) source

def run (filter : Option String) (readFile : String → Option String) (arguments : List String) :
    Report :=
  match request .none arguments with
  | .ok r => r.run filter readFile
  | .error .help => .success helpText []
  | .error .version => .success versionText []
  | .error .misuse =>
    .fail Report.misuseCode ⟨"the arguments cannot be used", some "try `--help`", none⟩ []

end Formula.CommandLine
