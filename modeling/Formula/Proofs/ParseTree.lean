import Formula.Expr.Plan

/-! The grammar of expressions in eight tiers. A tier joins one operand of the next tighter tier to
an expression of its own by one of its operators; a sign binds the next unary operand alone. -/
namespace Formula

/-- The tiers of the grammar, the loosest first. -/
inductive Tier where
  | or
  | and
  | not
  | comparison
  | sum
  | product
  | unary
  | primary
  deriving DecidableEq, Repr

namespace Tier

def tighter? : Tier → Option Tier
  | .or => some .and
  | .and => some .not
  | .not => some .comparison
  | .comparison => some .sum
  | .sum => some .product
  | .product => some .unary
  | .unary => some .primary
  | .primary => none

def rank : Tier → Nat
  | .or => 7
  | .and => 6
  | .not => 5
  | .comparison => 4
  | .sum => 3
  | .product => 2
  | .unary => 1
  | .primary => 0

/-- The operation that a kind of token joins two operands by, in a tier. -/
def joiner? : Tier → Kind → Option Symbol
  | .or, .or => some .or
  | .and, .and => some .and
  | .comparison, .greater => some .greater
  | .comparison, .greaterEqual => some .greaterEqual
  | .comparison, .less => some .less
  | .comparison, .lessEqual => some .lessEqual
  | .comparison, .equal => some .equal
  | .comparison, .notEqual => some .notEqual
  | .sum, .plus => some .plus
  | .sum, .minus => some .minus
  | .product, .times => some .times
  | .product, .divide => some .divide
  | .product, .modulo => some .modulo
  | _, _ => none

theorem rank_of_tighter? {tier next : Tier} (h : tier.tighter? = some next) :
    tier.rank = next.rank + 1 := by
  cases tier <;> simp only [tighter?, Option.some.injEq, reduceCtorEq] at h <;> subst h <;> rfl

theorem rank_le (tier : Tier) : tier.rank ≤ 7 := by cases tier <;> decide

theorem eq_of_rank_eq {tier other : Tier} (h : tier.rank = other.rank) : tier = other := by
  cases tier <;> cases other <;> first | rfl | simp [rank] at h

/-- A kind of token joins operands in one tier only. -/
theorem eq_of_joiner? {tier other : Tier} {k : Kind} {s s' : Symbol}
    (h : tier.joiner? k = some s) (h' : other.joiner? k = some s') : tier = other := by
  cases k <;> cases tier <;> simp only [joiner?, reduceCtorEq] at h <;> cases other <;>
    simp only [joiner?, reduceCtorEq] at h' <;> rfl

end Tier

def Value.literalKind : Value → Kind
  | .bool _ => .bool
  | .integer _ => .integer
  | .float _ => .float
  | .text _ => .string

def Sign.kind : Sign → Kind
  | .positive => .plus
  | .negative => .minus

inductive Parses : Tier → List Token → Expr → Prop where
  | identifier {t : Token} {name : String} (kind : t.kind = .identifier)
      (value : t.value = some (.text name)) : Parses .primary [t] (.reference name)
  | literal {t : Token} {v : Value} (kind : t.kind = v.literalKind) (value : t.value = some v) :
      Parses .primary [t] (.literal v)
  | group {opening closing : Token} {ts : List Token} {e : Expr}
      (opens : opening.kind = .openParen) (inner : Parses .or ts e)
      (closes : closing.kind = .closeParen) :
      Parses .primary (opening :: (ts ++ [closing])) (.operation .group .empty e)
  | signed {t : Token} {ts : List Token} {e : Expr} (sign : Sign) (kind : t.kind = sign.kind)
      (operand : Parses .unary ts e) : Parses .unary (t :: ts) (.operation sign.symbol .empty e)
  | invert {t : Token} {ts : List Token} {e : Expr} (kind : t.kind = .not)
      (operand : Parses .not ts e) : Parses .not (t :: ts) (.operation .invert .empty e)
  | join {tier next : Tier} {t : Token} {ls rs : List Token} {left right : Expr} {symbol : Symbol}
      (step : tier.tighter? = some next) (first : Parses next ls left)
      (operator : tier.joiner? t.kind = some symbol) (second : Parses tier rs right) :
      Parses tier (ls ++ t :: rs) (.operation symbol left right)
  | descend {tier next : Tier} {ts : List Token} {e : Expr} (step : tier.tighter? = some next)
      (tighter : Parses next ts e) : Parses tier ts e

namespace Symbol

def isBinary : Symbol → Bool
  | .reference | .literal | .group | .invert | .positive | .negative => false
  | _ => true

def isLeaf : Symbol → Bool
  | .reference | .literal => true
  | _ => false

end Symbol

/-- A tree in which every leaf has no operand, every group, sign and inversion the second one only,
and every other operation both. -/
def Expr.Shaped : Expr → Prop
  | .empty => False
  | .node symbol _ _ left right =>
    if symbol.isLeaf then left = .empty ∧ right = .empty
    else if symbol.isBinary then left.Shaped ∧ right.Shaped
    else left = .empty ∧ right.Shaped

theorem Tier.isBinary_of_joiner? {tier : Tier} {k : Kind} {s : Symbol}
    (h : tier.joiner? k = some s) : s.isBinary = true := by
  cases tier <;> cases k <;> simp only [joiner?, Option.some.injEq, reduceCtorEq] at h <;>
    subst h <;> rfl

theorem Symbol.not_isLeaf_of_isBinary {s : Symbol} (h : s.isBinary = true) : s.isLeaf = false := by
  cases s <;> first | rfl | cases h

namespace Parses

variable {tier : Tier} {ts : List Token} {e : Expr}

theorem isNode (h : Parses tier ts e) : e.isNode = true := by
  induction h with
  | identifier | literal | group | signed | invert | join => rfl
  | descend _ _ ih => exact ih

/-- Every node of a parse tree has exactly the operands that its symbol takes. -/
theorem shaped (h : Parses tier ts e) : e.Shaped := by
  induction h with
  | identifier | literal => exact ⟨rfl, rfl⟩
  | group _ _ _ ih | invert _ _ ih => exact ⟨rfl, ih⟩
  | signed sign _ _ ih => cases sign <;> exact ⟨rfl, ih⟩
  | join _ _ operator _ ihl ihr =>
    have hbinary := Tier.isBinary_of_joiner? operator
    have hleaf := Symbol.not_isLeaf_of_isBinary hbinary
    simp only [Expr.operation, Expr.Shaped, hbinary, hleaf, Bool.false_eq_true, if_false, if_true]
    exact ⟨ihl, ihr⟩
  | descend _ _ ih => exact ih

/-- A unary operand has nothing in its first place. -/
theorem exists_eq_node_empty (h : Parses tier ts e) (htier : tier.rank ≤ Tier.unary.rank) :
    ∃ symbol name note right, e = .node symbol name note .empty right := by
  induction h with
  | identifier | literal | group | signed => exact ⟨_, _, _, _, rfl⟩
  | invert => simp [Tier.rank] at htier
  | @join tier _ _ _ _ _ _ _ _ _ operator =>
    cases tier <;> simp [Tier.rank, Tier.joiner?] at htier operator
  | descend step _ ih =>
    have := Tier.rank_of_tighter? step
    exact ih (by omega)

end Parses
end Formula
