import Formula.Diagnostic
import Formula.Value

/-!
Tokens: their kinds, the values they may carry, and their written forms.
-/

namespace Formula

inductive Kind where
  /-- No token of a source is of this kind; it stands for the place before the first one. -/
  | illegal
  | eof
  | identifier
  | bool
  | integer
  | float
  | string
  | openParen
  | closeParen
  | plus
  | minus
  | times
  | divide
  | modulo
  | greater
  | less
  | greaterEqual
  | lessEqual
  | equal
  | notEqual
  | and
  | or
  | not
  deriving DecidableEq, Repr

namespace Kind

def all : List Kind :=
  [.illegal, .eof, .identifier, .bool, .integer, .float, .string, .openParen, .closeParen, .plus,
    .minus, .times, .divide, .modulo, .greater, .less, .greaterEqual, .lessEqual, .equal,
    .notEqual, .and, .or, .not]

theorem mem_all (k : Kind) : k ∈ all := by cases k <;> decide

/-- The name of a kind in a printed token stream. -/
def heading : Kind → String
  | .illegal => "ILLEGAL"
  | .eof => "EOF"
  | .identifier => "IDENTIFIER"
  | .bool => "BOOL"
  | .integer => "INTEGER"
  | .float => "FLOAT"
  | .string => "STRING"
  | .openParen => "LEFT_PAREN"
  | .closeParen => "RIGHT_PAREN"
  | .plus => "PLUS"
  | .minus => "MINUS"
  | .times => "STAR"
  | .divide => "SLASH"
  | .modulo => "PERCENT"
  | .greater => "GREATER"
  | .less => "LESS"
  | .greaterEqual => "GREATER_EQUAL"
  | .lessEqual => "LESS_EQUAL"
  | .equal => "EQUAL_EQUAL"
  | .notEqual => "BANG_EQUAL"
  | .and => "AND"
  | .or => "OR"
  | .not => "BANG"

/-- A kind as messages show it: the text of an operator, the name of any other kind. -/
def display : Kind → String
  | .illegal => "Illegal"
  | .eof => "Eof"
  | .identifier => "Identifier"
  | .bool => "BoolLiteral"
  | .integer => "IntegerLiteral"
  | .float => "FloatLiteral"
  | .string => "StringLiteral"
  | .openParen => "("
  | .closeParen => ")"
  | .plus => "+"
  | .minus => "-"
  | .times => "*"
  | .divide => "/"
  | .modulo => "%"
  | .greater => ">"
  | .less => "<"
  | .greaterEqual => ">="
  | .lessEqual => "<="
  | .equal => "=="
  | .notEqual => "!="
  | .and => "&&"
  | .or => "||"
  | .not => "!"

def ofWord (word : String) : Kind :=
  if word = "true" ∨ word = "false" then .bool else .identifier

end Kind

/-- A token of a source: its kind, the value it was decoded to, the code points before it, and the
bytes it takes. -/
structure Token where
  kind : Kind
  value : Option Value
  position : Nat
  span : Span
  deriving DecidableEq, Repr

namespace Token

def valueText : Option Value → String
  | none => "null"
  | some v => v.literal

def display (t : Token) : String :=
  match t.kind, t.value with
  | .eof, _ => t.kind.heading ++ "  null"
  | kind, none => kind.heading ++ " " ++ kind.display ++ " null"
  | .identifier, some (.text name) => t.kind.heading ++ " " ++ name
  | kind, some v => kind.heading ++ " " ++ v.literal

/-- The kind and the value of a token, as grammar errors name it. -/
def describe (t : Token) : String :=
  match t.value with
  | none => t.kind.display
  | some v => t.kind.display ++ " [" ++ v.literal ++ "]"

end Token
end Formula
