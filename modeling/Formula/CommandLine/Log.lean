import Formula.Compile

/-!
The log of a run: the events that the stages report, and which of them are written.
-/

namespace Formula.CommandLine

def programName : String := "rule_engine"

inductive Verbosity where
  | off
  | error
  | warn
  | info
  | debug
  | trace
  deriving DecidableEq, Repr

namespace Verbosity

/-- The rank of a verbosity; an event is written if its own rank is no greater. -/
def rank : Verbosity → Nat
  | .off => 0
  | .error => 1
  | .warn => 2
  | .info => 3
  | .debug => 4
  | .trace => 5

def ofName? (name : String) : Option Verbosity :=
  let name := String.ofList (name.toList.map Char.toLower)
  if name = "off" then some .off
  else if name = "error" then some .error
  else if name = "warn" then some .warn
  else if name = "info" then some .info
  else if name = "debug" then some .debug
  else if name = "trace" then some .trace
  else none

/-- The verbosity that a filter sets: that of a level for everything, or of a level for the program by
its name. A name without a level asks for every step, a filter for another program leaves nothing to
log, and an empty filter keeps errors only. A level that does not exist makes the filter void. -/
def ofFilter? (filter : String) : Option Verbosity :=
  let target := String.ofList (filter.toList.takeWhile (· ≠ '='))
  let own (v : Verbosity) : Verbosity := if target = programName then v else .off
  match filter.toList.dropWhile (· ≠ '=') with
  | [] => if filter = "" then some .error else some ((ofName? filter).getD (own .trace))
  | _ :: level => (ofName? (String.ofList level)).map own

/-- The verbosity of a run: that of the filter if it sets one, and else that of the options. -/
def ofSettings (filter : Option String) (verbose : Bool) : Verbosity :=
  (filter.bind ofFilter?).getD (if verbose then .debug else .warn)

end Verbosity

inductive Event where
  | scanned (tokens : Nat)
  | grammarStep (t : Token)
  | compiled (e : Expr)
  | evaluatedNode (symbol : Symbol) (category : Category)
  | evaluated (category : Category)

namespace Event

def level : Event → Verbosity
  | .scanned _ | .compiled _ | .evaluated _ => .debug
  | .grammarStep _ | .evaluatedNode _ _ => .trace

def line : Event → String
  | .scanned tokens => "DEBUG scanned expression tokens=" ++ Nat.repr tokens
  | .grammarStep t =>
    "TRACE grammar step kind=" ++ t.kind.display ++ " position=" ++ Nat.repr t.position
  | .compiled e =>
    "DEBUG compiled expression symbol=" ++ e.symbol?.elim "" Symbol.display ++ " tree=" ++ e.display
  | .evaluatedNode symbol category =>
    "TRACE evaluated node symbol=" ++ symbol.display ++ " flag=" ++ category.name
  | .evaluated category => "DEBUG evaluated expression flag=" ++ category.name

/-- The events of compiling a source, up to the stage that fails. -/
def ofCompile (source : String) : List Event :=
  match scan source with
  | .error _ => []
  | .ok ts =>
    let steps := match (Cursor.ofTokens (byteLength source.toList) ts).checkBalance with
      | (.error _, _) => []
      | (.ok (), balanced) => balanced.checked.map .grammarStep
    let result := match compile source with
      | .error _ => []
      | .ok e => [.compiled e]
    .scanned ts.length :: steps ++ result

/-- The events of evaluating an expression, up to the node that fails. -/
def ofEval (b : Bindings) (e : Expr) : List Event :=
  (e.completed b).map fun (symbol, category) => .evaluatedNode symbol category

def lines (verbosity : Verbosity) (events : List Event) : List String :=
  (events.filter fun event => event.level.rank ≤ verbosity.rank).map line

end Event
end Formula.CommandLine
