import Formula.Proofs.Compilation
import Formula.Proofs.Consistency
import Formula.Proofs.NodeValues

/-! Types of expressions, inferred from the types of their variables alone. Inference foretells
evaluation: a tree with a type comes to a value of that type unless it divides by zero, and a tree
without one never comes to a value. -/
namespace Formula

namespace Expr

/-- The type of a tree whose variables have the given types, if the operands of every operation
have types that the operation takes. -/
def infer? (types : String → Option ValueType) : Expr → Option ValueType
  | .empty => none
  | .node symbol name note left right =>
    match symbol with
    | .reference => types (name.getD "")
    | .literal => note.value.map Value.type
    | .group | .positive | .negative | .invert => (right.infer? types).bind symbol.prefixType?
    | _ => (left.infer? types).bind fun s => (right.infer? types).bind (symbol.joinType? s)

def symbols : Expr → List Symbol
  | .empty => []
  | .node symbol _ _ left right => symbol :: (left.symbols ++ right.symbols)

def names : Expr → List String
  | .empty => []
  | .node symbol name _ left right =>
    (if symbol = .reference then [name.getD ""] else []) ++ left.names ++ right.names

def Divides (e : Expr) : Prop := ∃ symbol ∈ e.symbols, symbol.divides

end Expr

namespace Bindings

def types (b : Bindings) (name : String) : Option ValueType :=
  (b.lookup name).join.map Value.type

/-- Every variable of a tree is bound to something that stands for a value. -/
def Covers (b : Bindings) (e : Expr) : Prop :=
  ∀ name ∈ e.names, ∃ v, b.lookup name = some (some v)

theorem Covers.operands {b : Bindings} {symbol : Symbol} {left right : Expr}
    (h : b.Covers (.operation symbol left right)) : b.Covers left ∧ b.Covers right := by
  constructor <;> intro name hname <;> apply h <;> simp [Expr.operation, Expr.names, hname]

end Bindings

def Annotation.Holds (type : ValueType) (a : Annotation) : Prop :=
  ∃ v, a.value = some v ∧ v.type = type ∧ a.category.Alike v.category

/-- What an evaluation may come to where inference has given a type or none, if a division by zero
is possible and if it is not. -/
def Foretold (division : Prop) : Option ValueType → Except EvalError Annotation → Prop
  | some type, .ok a => a.Holds type
  | none, .ok _ => False
  | some _, .error e => division ∧ e = .divideByZero
  | none, .error e =>
    (division ∧ e = .divideByZero) ∨ ∃ symbol left right, e = .typeMismatch symbol left right

namespace Annotation

@[simp] theorem holds_ofValue (v : Value) : (ofValue v).Holds v.type :=
  ⟨v, rfl, rfl, .refl _⟩

theorem holds_float (x : Float) : Holds .number ⟨some (.float x), .integer⟩ :=
  ⟨.float x, rfl, rfl, rfl, rfl, rfl⟩

end Annotation

namespace Foretold

variable {d d' : Prop} {i : Option ValueType} {r : Except EvalError Annotation}

theorem mono (h : Foretold d i r) (hd : d → d') : Foretold d' i r := by
  cases i <;> cases r
  case none.ok => exact h
  case some.ok => exact h
  case none.error => exact h.imp_left (And.imp_left hd)
  case some.error => exact ⟨hd h.1, h.2⟩

/-- Inference and evaluation go on together: where both have given something for an operand, the
rest is foretold; where one has given nothing, the other ends as well. -/
theorem bind {g : ValueType → Option ValueType} {k : Annotation → Except EvalError Annotation}
    (h : Foretold d i r) (rest : ∀ type a, a.Holds type → Foretold d (g type) (k a)) :
    Foretold d (i.bind g) (r >>= k) := by
  cases i with
  | none =>
    cases r with
    | ok a => exact h.elim
    | error e => exact h
  | some type =>
    cases r with
    | ok a => exact rest type a h
    | error e =>
      obtain ⟨hd, rfl⟩ := h
      show Foretold d (g type) (.error .divideByZero)
      cases g type with
      | none => exact .inl ⟨hd, rfl⟩
      | some _ => exact ⟨hd, rfl⟩

end Foretold

namespace Symbol

variable {symbol : Symbol}

theorem Results.foretold {s t : ValueType} {whole : Bool} {r : Except EvalError Annotation}
    (h : symbol.Results s t whole r) : Foretold symbol.divides (symbol.joinType? s t) r := by
  cases h with
  | value x typed =>
    rw [typed]
    exact Annotation.holds_ofValue x
  | remainder n typed =>
    rw [typed]
    exact Annotation.holds_ofValue (.integer n)
  | floatRemainder x typed =>
    rw [typed]
    exact Annotation.holds_float x
  | divideByZero typed divides =>
    rw [typed]
    exact ⟨divides, rfl⟩
  | mismatch l r untyped =>
    rw [untyped]
    exact .inr ⟨_, l, r, rfl⟩

section Application

variable {b : Bindings} {name : Option String} {own l r : Annotation} {s t : ValueType}

theorem foretold_apply_join (h : symbol.isBinary = true) (hl : l.Holds s) (hr : r.Holds t) :
    Foretold symbol.divides (symbol.joinType? s t) (symbol.apply b name own l r) := by
  obtain ⟨v, hv, rfl, hlv⟩ := hl
  obtain ⟨w, hw, rfl, hrw⟩ := hr
  have hadmits : symbol.admits l.category r.category = symbol.admits v.category w.category :=
    admits_congr hlv hrw
  rw [admits_eq_isSome_joinType? h] at hadmits
  rw [apply, hadmits]
  cases hjoin : symbol.joinType? v.type w.type with
  | none => exact .inr ⟨_, _, _, rfl⟩
  | some type =>
    have hforetold := (results_binary symbol v w).foretold
    rw [hjoin] at hforetold
    show Foretold symbol.divides (some type) (symbol.operate b name own l r)
    rwa [operate_of_isBinary h hv hw]

theorem foretold_apply_prefixed (hleaf : symbol.isLeaf = false) (hbinary : symbol.isBinary = false)
    (hr : r.Holds t) :
    Foretold symbol.divides (symbol.prefixType? t) (symbol.apply b name own l r) := by
  obtain ⟨v, hv, rfl, hrv⟩ := hr
  have hadmits : symbol.admits l.category r.category = symbol.admits l.category v.category :=
    admits_congr (.refl l.category) hrv
  rw [apply, hadmits]
  cases symbol with
  | group => exact ⟨v, hv, rfl, hrv⟩
  | positive =>
    cases v with
    | integer | float => exact ⟨_, hv, rfl, hrv⟩
    | text | bool => exact .inr ⟨_, _, _, rfl⟩
  | negative | invert =>
    cases v <;> simp only [admits, operate, hv] <;> first
      | exact Annotation.holds_ofValue _
      | exact .inr ⟨_, _, _, rfl⟩
  | reference | literal => cases hleaf
  | _ => cases hbinary

end Application

end Symbol

namespace Expr

variable {types : String → Option ValueType} {symbol : Symbol} {l r : Expr} {b : Bindings}

theorem infer?_join (h : symbol.isBinary = true) :
    (operation symbol l r).infer? types =
      (l.infer? types).bind fun s => (r.infer? types).bind (symbol.joinType? s) := by
  cases symbol with
  | reference | literal | group | invert | positive | negative => cases h
  | _ => rfl

theorem infer?_prefixed (hleaf : symbol.isLeaf = false) (hbinary : symbol.isBinary = false) :
    (operation symbol l r).infer? types = (r.infer? types).bind symbol.prefixType? := by
  cases symbol with
  | reference | literal => cases hleaf
  | group | invert | positive | negative => rfl
  | _ => cases hbinary

theorem divides_operation :
    (operation symbol l r).Divides ↔ symbol.divides ∨ l.Divides ∨ r.Divides := by
  simp [Divides, operation, symbols, or_and_right, exists_or]

theorem foretold_join (h : symbol.isBinary = true)
    (hl : Foretold l.Divides (l.infer? types) (l.eval b).outcome)
    (hr : Foretold r.Divides (r.infer? types) (r.eval b).outcome) :
    Foretold (operation symbol l r).Divides ((operation symbol l r).infer? types)
      ((operation symbol l r).eval b).outcome := by
  have hdivides := @divides_operation symbol l r
  rw [infer?_join h, operation, outcome_eval_node]
  apply (hl.mono fun hd => hdivides.mpr (.inr (.inl hd))).bind
  intro s x hx
  apply (hr.mono fun hd => hdivides.mpr (.inr (.inr hd))).bind
  intro t y hy
  exact (Symbol.foretold_apply_join h hx hy).mono fun hd => hdivides.mpr (.inl hd)

theorem foretold_prefixed (hleaf : symbol.isLeaf = false) (hbinary : symbol.isBinary = false)
    (hr : Foretold r.Divides (r.infer? types) (r.eval b).outcome) :
    Foretold (operation symbol .empty r).Divides ((operation symbol .empty r).infer? types)
      ((operation symbol .empty r).eval b).outcome := by
  have hdivides := @divides_operation symbol .empty r
  rw [infer?_prefixed hleaf hbinary, operation, outcome_eval_node]
  apply (hr.mono fun hd => hdivides.mpr (.inr (.inr hd))).bind
  intro t y hy
  exact (Symbol.foretold_apply_prefixed hleaf hbinary hy).mono fun hd => hdivides.mpr (.inl hd)

theorem foretold_reference {name : String} (covers : b.Covers (.reference name)) :
    Foretold (reference name).Divides ((reference name).infer? b.types)
      ((reference name).eval b).outcome := by
  obtain ⟨v, hv⟩ := covers name (by simp [names, reference])
  have hinfer : (reference name).infer? b.types = some v.type := by
    simp [infer?, reference, Bindings.types, hv]
  have houtcome : ((reference name).eval b).outcome = .ok (.ofValue v) := comesTo_reference hv
  rw [hinfer, houtcome]
  exact Annotation.holds_ofValue v

end Expr

namespace Parses

variable {tier : Tier} {ts : List Token} {e : Expr} {b : Bindings}

/-- Inference foretells the evaluation of every tree of the grammar. -/
theorem foretold (h : Parses tier ts e) (covers : b.Covers e) :
    Foretold e.Divides (e.infer? b.types) (e.eval b).outcome := by
  induction h with
  | identifier => exact Expr.foretold_reference covers
  | literal => exact Annotation.holds_ofValue _
  | group _ _ _ ih =>
    exact Expr.foretold_prefixed rfl rfl (ih covers)
  | invert _ _ ih =>
    exact Expr.foretold_prefixed rfl rfl (ih covers)
  | signed sign _ _ ih =>
    cases sign <;> exact Expr.foretold_prefixed rfl rfl (ih covers)
  | join _ _ operator _ ihl ihr =>
    obtain ⟨hl, hr⟩ := covers.operands
    exact Expr.foretold_join (Tier.isBinary_of_joiner? operator) (ihl hl) (ihr hr)
  | descend _ _ ih => exact ih covers

end Parses

/-- What inference says of an evaluation: a type promises a value of that type or a division by
zero, and no type promises a failure, which is a type mismatch unless the tree divides. -/
structure Predicts (type : Option ValueType) (e : Expr) (run : Evaluation) : Prop where
  typed : ∀ t, type = some t →
    (run.failure = none ∧ run.expr.note.Holds t) ∨ run.failure = some .divideByZero
  untyped : type = none → ∃ f, run.failure = some f ∧
    (.divide ∉ e.symbols → .modulo ∉ e.symbols →
      ∃ symbol left right, f = .typeMismatch symbol left right)

/-- Static typing is sound and complete for the evaluation of what a source compiles to, under
bindings of all its variables. -/
theorem infer?_predicts_eval {source : String} {e : Expr} (b : Bindings)
    (compiled : compile source = .ok e) (covers : b.Covers e) :
    Predicts (e.infer? b.types) e (e.eval b) := by
  have hrule := compiles_compile source
  rw [compiled] at hrule
  cases hrule with
  | tree _ _ _ _ parses =>
    have hforetold := parses.foretold covers
    generalize e.eval b = run at hforetold
    unfold Evaluation.outcome at hforetold
    constructor
    · intro t ht
      rw [ht] at hforetold
      cases hfailure : run.failure with
      | none =>
        rw [hfailure] at hforetold
        exact .inl ⟨rfl, hforetold⟩
      | some f =>
        rw [hfailure] at hforetold
        exact .inr (congrArg some hforetold.2)
    · intro hnone
      rw [hnone] at hforetold
      cases hfailure : run.failure with
      | none =>
        rw [hfailure] at hforetold
        exact hforetold.elim
      | some f =>
        rw [hfailure] at hforetold
        refine ⟨f, rfl, fun hdivide hmodulo => ?_⟩
        rcases hforetold with ⟨⟨symbol, hmem, rfl | rfl⟩, _⟩ | hmismatch
        · exact absurd hmem hdivide
        · exact absurd hmem hmodulo
        · exact hmismatch

/-- The tree of `-a % 2.5 > b && s + 't' == s`. -/
def remainderAndText : Expr :=
  .operation .and
    (.operation .greater
      (.operation .modulo (.operation .negative .empty (.reference "a")) (.literal (.float 2.5)))
      (.reference "b"))
    (.operation .equal (.operation .plus (.reference "s") (.literal (.text "t")))
      (.reference "s"))

theorem remainderAndText_predicted :
    compile "-a % 2.5 > b && s + 't' == s" = .ok remainderAndText ∧
      Bindings.Covers ⟨[("a", .integer 7), ("b", .double 0.5), ("s", .text "x")]⟩
        remainderAndText ∧
      Predicts (some .bool) remainderAndText
        (remainderAndText.eval ⟨[("a", .integer 7), ("b", .double 0.5), ("s", .text "x")]⟩) := by
  have compiled : compile "-a % 2.5 > b && s + 't' == s" = .ok remainderAndText :=
    by decide +kernel
  have covers : Bindings.Covers ⟨[("a", .integer 7), ("b", .double 0.5), ("s", .text "x")]⟩
      remainderAndText := by
    intro name hname
    have hmem : name ∈ ["a", "b", "s", "s"] := hname
    simp only [List.mem_cons, List.not_mem_nil, or_false] at hmem
    rcases hmem with rfl | rfl | rfl | rfl <;> exact ⟨_, rfl⟩
  exact ⟨compiled, covers, infer?_predicts_eval _ compiled covers⟩

end Formula
