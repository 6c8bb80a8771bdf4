import Formula.Value

/-!
Expressions as trees. A node has a symbol, up to two operands, and the value it was last evaluated
to; nothing but how a tree was put together says which operands are there.
-/

namespace Formula

inductive Symbol where
  | reference
  | literal
  | group
  | equal
  | notEqual
  | greater
  | less
  | greaterEqual
  | lessEqual
  | and
  | or
  | plus
  | minus
  | times
  | divide
  | modulo
  | invert
  | positive
  | negative
  deriving DecidableEq, Repr

def Symbol.display : Symbol → String
  | .reference => "VALUE"
  | .literal => "LITERAL"
  | .group => "NOOP"
  | .equal => "=="
  | .notEqual => "!="
  | .greater => ">"
  | .less => "<"
  | .greaterEqual => ">="
  | .lessEqual => "<="
  | .and => "&&"
  | .or => "||"
  | .plus | .positive => "+"
  | .minus | .negative => "-"
  | .times => "*"
  | .divide => "/"
  | .modulo => "%"
  | .invert => "!"

/-- What a node holds: a value once there is one, and the category it is reported under. -/
structure Annotation where
  value : Option Value
  category : Category
  deriving BEq, DecidableEq, Repr

namespace Annotation

def blank : Annotation := ⟨none, .null⟩

def ofValue (v : Value) : Annotation := ⟨some v, v.category⟩

end Annotation

/-- An expression; `empty` stands where an operand is missing. -/
inductive Expr where
  | empty
  | node (symbol : Symbol) (name : Option String) (note : Annotation) (left right : Expr)
  deriving BEq, DecidableEq, Repr

inductive Sign where
  | positive
  | negative
  deriving DecidableEq, Repr

def Sign.symbol : Sign → Symbol
  | .positive => .positive
  | .negative => .negative

def Symbol.sign? : Symbol → Option Sign
  | .positive => some .positive
  | .negative => some .negative
  | _ => none

namespace Expr

/-- A node that has not been evaluated. -/
def operation (symbol : Symbol) (left right : Expr) : Expr := .node symbol none .blank left right

def literal (v : Value) : Expr := .node .literal none (.ofValue v) .empty .empty

def reference (name : String) : Expr := .node .reference (some name) .blank .empty .empty

/-- What the root holds; a missing operand holds nothing. -/
def note : Expr → Annotation
  | .empty => .blank
  | .node _ _ note _ _ => note

def isNode : Expr → Bool
  | .empty => false
  | .node .. => true

def symbol? : Expr → Option Symbol
  | .empty => none
  | .node symbol _ _ _ _ => some symbol

/-- Puts a sign in front of an operand. In front of an operation with two operands, other than a
sign, it belongs to the first of them alone. -/
def withSign (sign : Sign) : Expr → Expr
  | .node symbol name note left right =>
    if left.isNode ∧ right.isNode ∧ symbol.sign? = none then
      .node symbol name note (.operation sign.symbol .empty left) right
    else .operation sign.symbol .empty (.node symbol name note left right)
  | .empty => .operation sign.symbol .empty .empty

/-- The text of a leaf or the head of an operation. -/
def head (symbol : Symbol) : String :=
  if symbol = .group then "group" else symbol.display

def display : Expr → String
  | .empty => ""
  | .node .reference name _ _ _ => name.getD ""
  | .node .literal _ note _ _ => note.value.elim "nil" Value.literal
  | .node symbol _ _ left right =>
    let operand (e : Expr) (text : String) := if e.isNode then " " ++ text else ""
    "(" ++ head symbol ++ operand left left.display ++ operand right right.display ++ ")"

@[simp] theorem note_empty : Expr.empty.note = .blank := rfl

@[simp] theorem note_node (symbol : Symbol) (name : Option String) (note : Annotation)
    (left right : Expr) : (Expr.node symbol name note left right).note = note := rfl

@[simp] theorem isNode_empty : Expr.empty.isNode = false := rfl

@[simp] theorem isNode_node (symbol : Symbol) (name : Option String) (note : Annotation)
    (left right : Expr) : (Expr.node symbol name note left right).isNode = true := rfl

@[simp] theorem isNode_withSign (sign : Sign) (e : Expr) : (e.withSign sign).isNode = true := by
  cases e with
  | empty => rfl
  | node =>
    simp only [withSign]
    split <;> rfl

end Expr
end Formula
