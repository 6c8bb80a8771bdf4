import Formula.Token

/-!
Which kinds of token may stand next to each other, and which may end an expression.
-/

namespace Formula.Kind

def starters : List Kind :=
  [.identifier, .bool, .integer, .float, .string, .openParen, .plus, .minus, .not]

def afterOperand : List Kind :=
  [.closeParen, .plus, .minus, .times, .divide, .modulo, .greater, .less, .greaterEqual, .lessEqual,
    .equal, .notEqual, .and, .or, .eof]

def afterArithmetic : List Kind :=
  [.identifier, .integer, .float, .openParen, .plus, .minus]

/-- What may stand after a kind of token; after `illegal`, what may stand first. -/
def followers : Kind → List Kind
  | .illegal | .openParen => starters
  | .eof => []
  | .identifier | .integer | .float | .closeParen => afterOperand
  | .bool => [.closeParen, .equal, .notEqual, .and, .or, .eof]
  | .string => [.closeParen, .plus, .equal, .notEqual, .and, .or, .eof]
  | .plus => .string :: afterArithmetic
  | .minus | .times | .divide | .greater | .less | .greaterEqual | .lessEqual => afterArithmetic
  | .modulo => [.identifier, .integer, .float, .openParen]
  | .equal | .notEqual => .string :: .bool :: afterArithmetic
  | .and | .or => .bool :: .not :: afterArithmetic
  | .not => [.identifier, .bool, .openParen, .not]

def admits (k next : Kind) : Bool := k.followers.contains next

def mayEnd : Kind → Bool
  | .eof | .identifier | .bool | .integer | .float | .string | .closeParen => true
  | _ => false

/-- Exactly the kinds that an end of input may follow may end an expression, besides that end. -/
theorem admits_eof_iff (k : Kind) : k.admits .eof = true ↔ k.mayEnd = true ∧ k ≠ .eof := by
  cases k <;> decide

end Formula.Kind
