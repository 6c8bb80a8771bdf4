import Formula.Expr.Eval
import Formula.Expr.Plan
import Formula.Token.Grammar
import Formula.Token.Lexer

/-!
From a source to an expression and to its value: scanning, the two checks, planning, evaluation. The
first stage that fails decides the error.
-/

namespace Formula

inductive CompileError where
  | scan (e : ScanError)
  | grammar (e : GrammarError)
  | plan (e : PlanError)
  | noExpression
  deriving DecidableEq, Repr

def CompileError.diagnostic : CompileError → Diagnostic
  | .scan e => e.diagnostic
  | .grammar e => e.diagnostic
  | .plan e => e.diagnostic
  | .noExpression => ⟨"expression is empty", none, none⟩

def planTokens (c : Cursor) : Except CompileError Expr :=
  match c.buildAll.1 with
  | .error e => .error (.plan e)
  | .ok .empty => .error .noExpression
  | .ok e => .ok e

/-- The expression that tokens stand for, if they pass both checks. -/
def compileTokens (sourceLength : Nat) (ts : List Token) : Except CompileError Expr :=
  match (Cursor.ofTokens sourceLength ts).checkBalance with
  | (.error e, _) => .error (.grammar e)
  | (.ok (), balanced) =>
    match balanced.checkSyntax with
    | (.error e, _) => .error (.grammar e)
    | (.ok (), checked) => planTokens checked

def compile (source : String) : Except CompileError Expr :=
  match scan source with
  | .error e => .error (.scan e)
  | .ok ts => compileTokens (byteLength source.toList) ts

inductive EvaluateError where
  | compile (e : CompileError)
  | eval (e : EvalError)
  deriving DecidableEq, Repr

def EvaluateError.diagnostic : EvaluateError → Diagnostic
  | .compile e => e.diagnostic
  | .eval e => e.diagnostic

def evaluate (source : String) (b : Bindings) : Except EvaluateError Annotation :=
  match compile source with
  | .error e => .error (.compile e)
  | .ok e =>
    match e.eval b with
    | ⟨_, some failure⟩ => .error (.eval failure)
    | ⟨result, none⟩ => .ok result.note

end Formula
