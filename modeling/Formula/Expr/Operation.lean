import Formula.Diagnostic
import Formula.Expr
import Formula.Parameter

/-!
What one node computes from its operands: the categories its symbol admits, and the value that
results. The check looks at categories and the computation at values; a remainder of floats is a
float that is reported as an integer.
-/

namespace Formula

inductive EvalError where
  /-- The categories of the operands do not suit the symbol; a sign or inversion names only one. -/
  | typeMismatch (symbol : Symbol) (left : Option Category) (right : Category)
  | missingParameter (name : String)
  /-- A parameter that stands for no scalar. -/
  | unsupportedType (name : String)
  | divideByZero
  deriving DecidableEq, Repr

def EvalError.diagnostic : EvalError → Diagnostic
  | .typeMismatch symbol left right =>
    let first := left.elim "" fun c => "left='" ++ c.name ++ "', "
    ⟨"type mismatch for operator [" ++ symbol.display ++ "]: " ++ first ++ "right='" ++
        right.name ++ "'",
      some ("check the operand types of `" ++ symbol.display ++ "`"), none⟩
  | .missingParameter name =>
    ⟨"no parameter '" ++ name ++ "' found",
      some ("bind `" ++ name ++ "` before evaluating the expression"), none⟩
  | .unsupportedType name =>
    ⟨"unsupported type",
      some ("parameter `" ++ name ++ "` must be a boolean, number or string"), none⟩
  | .divideByZero => ⟨"number divide by zero", none, none⟩

namespace Category

def bothNumbers (left right : Category) : Bool := left.isNumber && right.isNumber

def bothOrdered (left right : Category) : Bool :=
  (left.isText && right.isText) || bothNumbers left right

def bothBools (left right : Category) : Bool := left.isBool && right.isBool

def bothComparable (left right : Category) : Bool := bothOrdered left right || bothBools left right

end Category

namespace Symbol

/-- Whether the symbol takes one operand, the second. -/
def isUnary : Symbol → Bool
  | .invert | .positive | .negative => true
  | _ => false

def admits (symbol : Symbol) (left right : Category) : Bool :=
  match symbol with
  | .reference | .literal | .group => true
  | .equal | .notEqual => Category.bothComparable left right
  | .greater | .less | .greaterEqual | .lessEqual | .plus => Category.bothOrdered left right
  | .and | .or => Category.bothBools left right
  | .minus | .times | .divide | .modulo => Category.bothNumbers left right
  | .invert => right.isBool
  | .positive | .negative => right.isNumber

def mismatch (symbol : Symbol) (left right : Category) : EvalError :=
  .typeMismatch symbol (if symbol.isUnary then none else some left) right

/-- The complaint about two operands that the computation cannot use. -/
def mismatchOf (symbol : Symbol) (left right : Value) : EvalError :=
  .typeMismatch symbol (some left.category) right.category

def truth (b : Bool) : Except EvalError Annotation := .ok (.ofValue (.bool b))

def whole (n : Int64) : Except EvalError Annotation := .ok (.ofValue (.integer n))

def real (x : Float) : Except EvalError Annotation := .ok (.ofValue (.float x))

def onFloats (symbol : Symbol) (a b : Float) : Except EvalError Annotation :=
  match symbol with
  | .plus => real (a + b)
  | .minus => real (a - b)
  | .times => real (a * b)
  | .divide => if b == 0.0 then .error .divideByZero else real (a / b)
  | .modulo => .ok ⟨some (.float (a.truncRem b)), .integer⟩
  | .greater => truth (b < a)
  | .less => truth (a < b)
  | .greaterEqual => truth (b ≤ a)
  | .lessEqual => truth (a ≤ b)
  | .equal => truth (a == b)
  | .notEqual => truth (a != b)
  | _ => .error (symbol.mismatchOf (.float a) (.float b))

/-- Computes with two integers, modulo `2 ^ 64`. A quotient that is not whole is a float. -/
def onIntegers (symbol : Symbol) (a b : Int64) : Except EvalError Annotation :=
  match symbol with
  | .plus => whole (a + b)
  | .minus => whole (a - b)
  | .times => whole (a * b)
  | .divide =>
    if b = 0 then .error .divideByZero
    else if a % b = 0 then whole (a / b)
    else real (Float.ofInt64 a / Float.ofInt64 b)
  | .modulo => if b = 0 then .error .divideByZero else whole (a % b)
  | .greater => truth (b < a)
  | .less => truth (a < b)
  | .greaterEqual => truth (b ≤ a)
  | .lessEqual => truth (a ≤ b)
  | .equal => truth (a = b)
  | .notEqual => truth (a ≠ b)
  | _ => .error (symbol.mismatchOf (.integer a) (.integer b))

/-- Computes with two numbers: with integers if both are, and with floats otherwise. -/
def onNumbers (symbol : Symbol) (left right : Value) : Except EvalError Annotation :=
  match left, right with
  | .integer a, .integer b => symbol.onIntegers a b
  | left, right =>
    match left.toFloat?, right.toFloat? with
    | some a, some b => symbol.onFloats a b
    | _, _ => .error (symbol.mismatchOf left right)

/-- Compares two texts by their code points. -/
def onTexts (symbol : Symbol) (a b : String) : Except EvalError Annotation :=
  match symbol with
  | .greater => truth (b < a)
  | .less => truth (a < b)
  | .greaterEqual => truth (b ≤ a)
  | .lessEqual => truth (a ≤ b)
  | .equal => truth (a = b)
  | .notEqual => truth (a ≠ b)
  | _ => .error (symbol.mismatchOf (.text a) (.text b))

def onBools (symbol : Symbol) (a b : Bool) : Except EvalError Annotation :=
  match symbol with
  | .equal => truth (a = b)
  | .notEqual => truth (a ≠ b)
  | _ => .error (symbol.mismatchOf (.bool a) (.bool b))

def compare (symbol : Symbol) (left right : Value) : Except EvalError Annotation :=
  match left, right with
  | .text a, .text b => symbol.onTexts a b
  | .bool a, .bool b => symbol.onBools a b
  | left, right => symbol.onNumbers left right

def binary (symbol : Symbol) (left right : Value) : Except EvalError Annotation :=
  match symbol with
  | .and =>
    match left, right with
    | .bool a, .bool b => truth (a && b)
    | _, _ => .error (symbol.mismatchOf left right)
  | .or =>
    match left, right with
    | .bool a, .bool b => truth (a || b)
    | _, _ => .error (symbol.mismatchOf left right)
  | .plus =>
    match left, right with
    | .text a, .text b => .ok (.ofValue (.text (a ++ b)))
    | _, _ => symbol.onNumbers left right
  | .minus | .times | .divide | .modulo => symbol.onNumbers left right
  | _ => symbol.compare left right

def unary (symbol : Symbol) (operand : Value) : Except EvalError Annotation :=
  match symbol, operand with
  | .negative, .float x => real (-x)
  | .negative, .integer n => whole (-n)
  | .invert, .bool b => truth (!b)
  | _, _ => .error (.typeMismatch symbol none operand.category)

def resolve (b : Bindings) (name : String) : Except EvalError Annotation :=
  match b.find? name with
  | none => .error (.missingParameter name)
  | some p =>
    match p.normalize? with
    | none => .error (.unsupportedType name)
    | some v => .ok (.ofValue v)

/-- What a node comes to, once its operands hold their results. A literal keeps what it holds, and a
group and a positive sign pass on what their operand holds. -/
def operate (b : Bindings) (symbol : Symbol) (name : Option String) (own left right : Annotation) :
    Except EvalError Annotation :=
  match symbol with
  | .reference => resolve b (name.getD "")
  | .literal => .ok own
  | .group | .positive => .ok right
  | .negative | .invert =>
    match right.value with
    | some v => symbol.unary v
    | none => .error (symbol.mismatch left.category right.category)
  | _ =>
    match left.value, right.value with
    | some v, some w => symbol.binary v w
    | _, _ => .error (symbol.mismatch left.category right.category)

/-- What a node comes to if its symbol admits the categories of its operands. -/
def apply (b : Bindings) (symbol : Symbol) (name : Option String) (own left right : Annotation) :
    Except EvalError Annotation :=
  if symbol.admits left.category right.category then symbol.operate b name own left right
  else .error (symbol.mismatch left.category right.category)

end Symbol
end Formula
