import Formula.Json.Reader

/-!
Command-line arguments. They are read from left to right, and the first one that is wrong, or that
asks for help or the version, decides; what is missing or contradictory is found at the end.
-/

namespace Formula.CommandLine

inductive Command where
  | tokenize
  | parse
  | eval
  deriving DecidableEq, Repr

def Command.ofName? (name : String) : Option Command :=
  if name = "tokenize" then some .tokenize
  else if name = "parse" then some .parse
  else if name = "eval" then some .eval
  else none

inductive Flag where
  | verbose
  | help
  | version
  | file
  | param
  | params
  | json
  deriving DecidableEq, Repr

namespace Flag

def all : List Flag := [.verbose, .help, .version, .file, .param, .params, .json]

def name : Flag → String
  | .verbose => "verbose"
  | .help => "help"
  | .version => "version"
  | .file => "file"
  | .param => "param"
  | .params => "params"
  | .json => "json"

def letter? : Flag → Option Char
  | .verbose => some 'v'
  | .help => some 'h'
  | .version => some 'V'
  | .file => some 'f'
  | .param => some 'p'
  | .params | .json => none

def takesValue : Flag → Bool
  | .file | .param | .params => true
  | _ => false

/-- Whether the option may stand behind a command, or in front of any if there is none. -/
def allowed (command : Option Command) : Flag → Bool
  | .verbose | .help => true
  | .version => command.isNone
  | .file => command.isSome
  | .param | .params | .json => command = some .eval

def ofName? (command : Option Command) (name : String) : Option Flag :=
  all.find? fun flag => flag.allowed command && flag.name = name

def ofLetter? (command : Option Command) (letter : Char) : Option Flag :=
  all.find? fun flag => flag.allowed command && flag.letter? = some letter

end Flag

inductive Stop where
  | help
  | version
  | misuse
  deriving DecidableEq, Repr

structure Settings where
  verbose : Bool
  expression : Option String
  file : Option String
  params : List (String × Json)
  members : Option String
  json : Bool

namespace Settings

def none : Settings := ⟨false, .none, .none, [], .none, false⟩

/-- Splits `NAME=VALUE` at its first equals sign. The value is read as JSON, or is a text as it
stands if it is no JSON. -/
def binding? (argument : String) : Option (String × Json) :=
  match argument.toList.dropWhile (· ≠ '=') with
  | [] => .none
  | _ :: value =>
    let text := String.ofList value
    some (String.ofList (argument.toList.takeWhile (· ≠ '=')), (Json.parse? text).getD (.string text))

/-- Sets an option that takes no value. None may be given twice. -/
def mark (s : Settings) : Flag → Except Stop Settings
  | .help => .error .help
  | .version => .error .version
  | .verbose => if s.verbose then .error .misuse else .ok { s with verbose := true }
  | .json => if s.json then .error .misuse else .ok { s with json := true }
  | _ => .error .misuse

/-- Sets an option to a value. Only bindings may be given more than once, and a path is not empty. -/
def store (s : Settings) (flag : Flag) (value : String) : Except Stop Settings :=
  match flag with
  | .file =>
    if s.file.isSome ∨ value = "" then .error .misuse else .ok { s with file := some value }
  | .params =>
    if s.members.isSome then .error .misuse else .ok { s with members := some value }
  | .param =>
    match binding? value with
    | some pair => .ok { s with params := s.params ++ [pair] }
    | .none => .error .misuse
  | _ => .error .misuse

/-- Sets the expression, which is given once. -/
def place (s : Settings) (argument : String) : Except Stop Settings :=
  if s.expression.isSome then .error .misuse else .ok { s with expression := some argument }

/-- What one argument of options comes to: settings, or an option whose value is to follow. -/
abbrev Step := Except Stop (Settings × Option Flag)

/-- Reads the letters behind one dash. A letter that takes a value takes the rest of the argument,
without an equals sign in front, or the next argument if there is no rest. -/
def letters (command : Option Command) (s : Settings) : List Char → Step
  | [] => .ok (s, .none)
  | letter :: more =>
    match Flag.ofLetter? command letter with
    | .none => .error .misuse
    | some flag =>
      if flag.takesValue then
        match more with
        | [] => .ok (s, some flag)
        | '=' :: value => (s.store flag (String.ofList value)).map (·, .none)
        | value => (s.store flag (String.ofList value)).map (·, .none)
      else
        match s.mark flag with
        | .ok s => s.letters command more
        | .error stop => .error stop

/-- Reads a name behind two dashes, with its value if an equals sign follows. -/
def named (command : Option Command) (s : Settings) (argument : List Char) : Step :=
  match Flag.ofName? command (String.ofList (argument.takeWhile (· ≠ '='))),
      argument.dropWhile (· ≠ '=') with
  | .none, _ => .error .misuse
  | some flag, [] =>
    if flag.takesValue then .ok (s, some flag) else (s.mark flag).map (·, .none)
  | some flag, _ :: value =>
    if flag.takesValue then (s.store flag (String.ofList value)).map (·, .none)
    else .error .misuse

/-- Whether an argument stands for itself: it is a lone dash, or does not begin with one. -/
def isPlain (argument : String) : Bool :=
  argument = "-" || argument.toList.head? ≠ some '-'

def option (command : Option Command) (s : Settings) (argument : String) : Step :=
  match argument.toList with
  | '-' :: '-' :: name => s.named command name
  | _ :: cs => s.letters command cs
  | [] => .error .misuse

/-- Reads the arguments behind a command. Behind `--` every argument stands for itself. -/
def read (command : Command) (s : Settings) : List String → Except Stop Settings
  | [] => .ok s
  | argument :: arguments =>
    if argument = "--" then arguments.foldlM place s
    else if isPlain argument then
      match s.place argument with
      | .ok s => s.read command arguments
      | .error stop => .error stop
    else
      match s.option (some command) argument with
      | .error stop => .error stop
      | .ok (s, .none) => s.read command arguments
      | .ok (s, some flag) =>
        match arguments with
        | [] => .error .misuse
        | value :: arguments =>
          if isPlain value then
            match s.store flag value with
            | .ok s => s.read command arguments
            | .error stop => .error stop
          else .error .misuse

end Settings

inductive Origin where
  | text (expression : String)
  | file (path : String)
  deriving DecidableEq, Repr

structure EvalSettings where
  params : List (String × Json)
  members : Option String
  json : Bool

inductive Action where
  | tokenize
  | parse
  | eval (settings : EvalSettings)

structure Request where
  verbose : Bool
  origin : Origin
  action : Action

/-- The origin of the expression: either an argument or a file, and not both. -/
def Settings.origin? (s : Settings) : Option Origin :=
  match s.expression, s.file with
  | some expression, .none => some (.text expression)
  | .none, some path => some (.file path)
  | _, _ => .none

def Command.action (command : Command) (s : Settings) : Action :=
  match command with
  | .tokenize => .tokenize
  | .parse => .parse
  | .eval => .eval ⟨s.params, s.members, s.json⟩

def Command.request (command : Command) (verbose : Bool) (arguments : List String) :
    Except Stop Request :=
  match Settings.none.read command arguments with
  | .error stop => .error stop
  | .ok s =>
    match s.origin? with
    | some origin => .ok ⟨verbose || s.verbose, origin, command.action s⟩
    | .none => .error .misuse

def helpOn : List String → Stop
  | [] => .help
  | [name] => if name = "help" ∨ (Command.ofName? name).isSome then .help else .misuse
  | _ => .misuse

/-- Reads all arguments; options in front of the command are set in `s`. -/
def request (s : Settings) : List String → Except Stop Request
  | [] => .error .misuse
  | argument :: arguments =>
    if argument = "--" then .error .misuse
    else if Settings.isPlain argument then
      if argument = "help" then .error (helpOn arguments)
      else
        match Command.ofName? argument with
        | some command => command.request s.verbose arguments
        | none => .error .misuse
    else
      match s.option none argument with
      | .error stop => .error stop
      | .ok (s, _) => request s arguments

end Formula.CommandLine
