import Formula.Expr.Operation
import Formula.Proofs.ParseTree

/-! What nodes compute from the values of their operands. The types of the two say whether there is a
result and of which type it is; a quotient or a remainder may fail all the same, by zero. -/
namespace Formula

/-- What typing tells apart; the two sorts of number are one type. -/
inductive ValueType where
  | number
  | text
  | bool
  deriving DecidableEq, Repr

namespace Value

def type : Value → ValueType
  | .integer _ | .float _ => .number
  | .text _ => .text
  | .bool _ => .bool

def isWhole : Value → Bool
  | .integer _ => true
  | _ => false

theorem category_eq_bool {v : Value} (h : v.type = .bool) : v.category = .bool := by
  cases v with
  | bool => rfl
  | _ => cases h

end Value

namespace Symbol

def joinType? : Symbol → ValueType → ValueType → Option ValueType
  | .and, .bool, .bool | .or, .bool, .bool => some .bool
  | .minus, .number, .number | .times, .number, .number => some .number
  | .divide, .number, .number | .modulo, .number, .number => some .number
  | .plus, .number, .number => some .number
  | .plus, .text, .text => some .text
  | .greater, .number, .number | .greater, .text, .text => some .bool
  | .less, .number, .number | .less, .text, .text => some .bool
  | .greaterEqual, .number, .number | .greaterEqual, .text, .text => some .bool
  | .lessEqual, .number, .number | .lessEqual, .text, .text => some .bool
  | .equal, s, t | .notEqual, s, t => if s = t then some .bool else none
  | _, _, _ => none

def prefixType? : Symbol → ValueType → Option ValueType
  | .group, t => some t
  | .positive, .number | .negative, .number => some .number
  | .invert, .bool => some .bool
  | _, _ => none

def divides (symbol : Symbol) : Prop := symbol = .divide ∨ symbol = .modulo

def isComparison : Symbol → Bool
  | .equal | .notEqual | .greater | .less | .greaterEqual | .lessEqual => true
  | _ => false

def givesTruth (symbol : Symbol) : Bool :=
  symbol.isComparison || symbol = .and || symbol = .or || symbol = .invert

/-- What may come of two operands of given types, if both are integers and if not. -/
inductive Results (symbol : Symbol) (s t : ValueType) (whole : Bool) :
    Except EvalError Annotation → Prop where
  | value (x : Value) (typed : symbol.joinType? s t = some x.type) (other : symbol ≠ .modulo) :
      Results symbol s t whole (.ok (.ofValue x))
  | remainder (n : Int64) (typed : symbol.joinType? s t = some .number)
      (symbol_eq : symbol = .modulo) (both : whole = true) :
      Results symbol s t whole (.ok (.ofValue (.integer n)))
  | floatRemainder (x : Float) (typed : symbol.joinType? s t = some .number)
      (symbol_eq : symbol = .modulo) (either : whole = false) :
      Results symbol s t whole (.ok ⟨some (.float x), .integer⟩)
  | divideByZero (typed : symbol.joinType? s t = some .number) (divides : symbol.divides) :
      Results symbol s t whole (.error .divideByZero)
  | mismatch (l : Option Category) (r : Category) (untyped : symbol.joinType? s t = none) :
      Results symbol s t whole (.error (.typeMismatch symbol l r))

variable {symbol : Symbol} {s t type : ValueType} {v w : Value}

theorem results_onFloats (x y : Float) :
    symbol.Results .number .number false (symbol.onFloats x y) := by
  cases symbol with
  | divide =>
    simp only [onFloats]
    split
    · exact .divideByZero rfl (.inl rfl)
    · exact .value _ rfl (by decide)
  | modulo => exact .floatRemainder _ rfl rfl rfl
  | plus | minus | times => exact .value _ rfl (by decide)
  | greater | less | greaterEqual | lessEqual | equal | notEqual =>
    exact .value (.bool _) rfl (by decide)
  | _ => exact .mismatch _ _ rfl

theorem results_onIntegers (m n : Int64) :
    symbol.Results .number .number true (symbol.onIntegers m n) := by
  cases symbol with
  | divide =>
    simp only [onIntegers]
    split
    · exact .divideByZero rfl (.inl rfl)
    · split <;> exact .value _ rfl (by decide)
  | modulo =>
    simp only [onIntegers]
    split
    · exact .divideByZero rfl (.inr rfl)
    · exact .remainder _ rfl rfl rfl
  | plus | minus | times => exact .value _ rfl (by decide)
  | greater | less | greaterEqual | lessEqual | equal | notEqual =>
    exact .value (.bool _) rfl (by decide)
  | _ => exact .mismatch _ _ rfl

theorem results_onNumbers (hv : v.type = .number) (hw : w.type = .number) :
    symbol.Results .number .number (v.isWhole && w.isWhole) (symbol.onNumbers v w) := by
  cases v with
  | integer m =>
    cases w with
    | integer n => exact results_onIntegers m n
    | float y => exact results_onFloats _ y
    | text | bool => cases hw
  | float x =>
    cases w with
    | integer | float => exact results_onFloats x _
    | text | bool => cases hw
  | text | bool => cases hv

theorem results_numbers (hv : v.type = .number) (hw : w.type = .number) :
    symbol.Results .number .number (v.isWhole && w.isWhole) (symbol.binary v w) := by
  have hnumbers := @results_onNumbers symbol v w hv hw
  cases symbol with
  | minus | times | divide | modulo => exact hnumbers
  | and | or => cases v <;> first | exact .mismatch _ _ rfl | cases hv
  | _ => cases v <;> cases w <;> first | exact hnumbers | cases hv

theorem results_texts (x y : String) :
    symbol.Results .text .text false (symbol.binary (.text x) (.text y)) := by
  cases symbol with
  | plus => exact .value (.text _) rfl (by decide)
  | greater | less | greaterEqual | lessEqual | equal | notEqual =>
    exact .value (.bool _) rfl (by decide)
  | _ => exact .mismatch _ _ rfl

theorem results_bools (x y : Bool) :
    symbol.Results .bool .bool false (symbol.binary (.bool x) (.bool y)) := by
  cases symbol with
  | and | or | equal | notEqual => exact .value (.bool _) rfl (by decide)
  | _ => exact .mismatch _ _ rfl

/-- An operation takes operands of one type. -/
theorem eq_of_joinType? (h : symbol.joinType? s t = some type) : s = t := by
  cases symbol <;> cases s <;> cases t <;> first | rfl | cases h

theorem results_mixed (h : v.type ≠ w.type) :
    symbol.Results v.type w.type (v.isWhole && w.isWhole) (symbol.binary v w) := by
  have huntyped : symbol.joinType? v.type w.type = none := by
    cases hjoin : symbol.joinType? v.type w.type with
    | none => rfl
    | some _ => exact absurd (eq_of_joinType? hjoin) h
  have hrefused : ∃ l r, symbol.binary v w = .error (.typeMismatch symbol l r) := by
    cases v <;> cases w <;> first
      | exact absurd rfl h
      | cases symbol <;> exact ⟨_, _, rfl⟩
  obtain ⟨l, r, hbinary⟩ := hrefused
  rw [hbinary]
  exact .mismatch l r huntyped

/-- What an operation on two operands comes to. -/
theorem results_binary (symbol : Symbol) (v w : Value) :
    symbol.Results v.type w.type (v.isWhole && w.isWhole) (symbol.binary v w) := by
  by_cases h : v.type = w.type
  · cases v with
    | integer | float => exact h ▸ results_numbers rfl h.symm
    | text x =>
      cases w with
      | text y => exact results_texts x y
      | _ => cases h
    | bool x =>
      cases w with
      | bool y => exact results_bools x y
      | _ => cases h
  · exact results_mixed h

/-- The check of categories passes exactly where the types of the operands are taken. -/
theorem admits_eq_isSome_joinType? (h : symbol.isBinary = true) :
    symbol.admits v.category w.category = (symbol.joinType? v.type w.type).isSome := by
  cases symbol with
  | reference | literal | group | invert | positive | negative => cases h
  | _ => cases v <;> cases w <;> rfl

theorem eq_bool_of_joinType? (h : symbol.joinType? s t = some type)
    (truth : symbol.givesTruth = true) : type = .bool := by
  cases symbol with
  | and | or | equal | notEqual | greater | less | greaterEqual | lessEqual =>
    cases s <;> cases t <;> first | exact (Option.some.inj h).symm | exact nomatch h
  | invert => cases h
  | _ => cases truth

/-- What a sign or an inversion makes of an operand. -/
theorem unary_result {a : Annotation} (h : symbol.unary v = .ok a) :
    ∃ x, a = .ofValue x ∧ symbol.prefixType? v.type = some x.type := by
  cases symbol with
  | negative =>
    cases v with
    | integer | float => exact ⟨_, (Except.ok.inj h).symm, rfl⟩
    | text | bool => cases h
  | invert =>
    cases v with
    | bool => exact ⟨_, (Except.ok.inj h).symm, rfl⟩
    | integer | float | text => cases h
  | _ => cases h

theorem eq_bool_of_prefixType? (h : symbol.prefixType? t = some type)
    (truth : symbol.givesTruth = true) : type = .bool := by
  cases symbol with
  | invert => cases t <;> first | exact (Option.some.inj h).symm | exact nomatch h
  | group | positive | negative => cases truth
  | _ => cases h

section Application

variable {b : Bindings} {name : Option String} {a own left right : Annotation}

theorem operate_of_isBinary (h : symbol.isBinary = true) (hv : left.value = some v)
    (hw : right.value = some w) :
    symbol.operate b name own left right = symbol.binary v w := by
  cases symbol with
  | reference | literal | group | invert | positive | negative => cases h
  | _ => simp only [operate, hv, hw]

theorem exists_operands (h : symbol.isBinary = true)
    (result : symbol.operate b name own left right = .ok a) :
    ∃ v w, left.value = some v ∧ right.value = some w := by
  cases hl : left.value with
  | none =>
    cases symbol with
    | reference | literal | group | invert | positive | negative => cases h
    | _ => simp [operate, hl] at result
  | some v =>
    cases hr : right.value with
    | none =>
      cases symbol with
      | reference | literal | group | invert | positive | negative => cases h
      | _ => simp [operate, hl, hr] at result
    | some w => exact ⟨v, w, rfl, rfl⟩

/-- What a node comes to is what it computes. -/
theorem operate_of_apply (h : symbol.apply b name own left right = .ok a) :
    symbol.operate b name own left right = .ok a := by
  unfold apply at h
  split at h
  · exact h
  · cases h

end Application

end Symbol
end Formula
