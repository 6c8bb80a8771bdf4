import Formula.Proofs.Composition
import Formula.Proofs.NodeValues
import Formula.Proofs.Reporting

/-! Chains of one operator. The operands of a chain nest to the right, which does not show where the
operation is associative: its value is that of the operands taken from left to right. -/
namespace Formula

def chain (symbol : Symbol) (first : String) : List String → String
  | [] => "(" ++ first ++ ")"
  | next :: rest => "(" ++ first ++ ") " ++ symbol.display ++ " " ++ chain symbol next rest

/-- A chain with all its parentheses written out, the first two sources innermost. -/
def leftNested (symbol : Symbol) (first : String) (rest : List String) : String :=
  rest.foldl (fun text next => chain symbol text [next]) first

/-- Trees in groups, each joined to all that come behind it. -/
def Expr.nestRight (symbol : Symbol) (first : Expr) : List Expr → Expr
  | [] => first.parenthesized
  | next :: rest => .operation symbol first.parenthesized (nestRight symbol next rest)

/-- A chain compiles to the tree that nests to the right, whatever its operands are. -/
theorem compile_chain {symbol : Symbol} {source : String} {e : Expr}
    (hbinary : symbol.isBinary = true) (first : compile source = .ok e)
    (rest : List (String × Expr)) (h : ∀ p ∈ rest, compile p.1 = .ok p.2) :
    compile (chain symbol source (rest.map Prod.fst)) =
      .ok (.nestRight symbol e (rest.map Prod.snd)) := by
  obtain ⟨tier, next, hoperator, hstep, _⟩ := Symbol.exists_joiner? hbinary
  have hreads : ∃ ts, ReadsAs tier (chain symbol source (rest.map Prod.fst)).toList ts
      (.nestRight symbol e (rest.map Prod.snd)) := by
    induction rest generalizing source e with
    | nil => exact exists_readsAs_group first tier
    | cons p rest ih =>
      obtain ⟨hp, hrest⟩ := List.forall_mem_cons.mp h
      obtain ⟨us, hus⟩ := ih hp hrest
      have blank : ∀ c ∈ [' '], Text.isBlank c = true := List.forall_mem_singleton.mpr rfl
      simpa [chain, Expr.nestRight] using hus.exists_join hbinary hoperator hstep first blank
  obtain ⟨ts, hts⟩ := hreads
  exact hts.compile_eq

/-- The operations that take two values of one sort to a third, however they are grouped: sums and
products of integers modulo `2 ^ 64`, texts put together, conjunctions and disjunctions. -/
inductive Homogeneous : {α : Type} → Symbol → (α → Value) → (α → α → α) → Prop where
  | sum : Homogeneous .plus Value.integer (· + ·)
  | concatenation : Homogeneous .plus Value.text (· ++ ·)
  | product : Homogeneous .times Value.integer (· * ·)
  | both : Homogeneous .and Value.bool (· && ·)
  | either : Homogeneous .or Value.bool (· || ·)

namespace Homogeneous

variable {α : Type} {symbol : Symbol} {inject : α → Value} {op : α → α → α}

theorem isBinary (h : Homogeneous symbol inject op) : symbol.isBinary = true := by
  cases h <;> rfl

theorem associative (h : Homogeneous symbol inject op) : Std.Associative op where
  assoc := by
    cases h with
    | sum => exact Int64.add_assoc
    | concatenation => exact fun _ _ _ => String.append_assoc
    | product => exact Int64.mul_assoc
    | both => exact Bool.and_assoc
    | either => exact Bool.or_assoc

theorem category_ne_float (h : Homogeneous symbol inject op) (x : α) :
    (inject x).category ≠ .float := by
  cases h <;> nofun

variable {b : Bindings} {e f : Expr} {x y : α}

theorem comesTo (h : Homogeneous symbol inject op) (first : e.ComesTo b (inject x))
    (second : f.ComesTo b (inject y)) :
    (Expr.operation symbol e f).ComesTo b (inject (op x y)) := by
  cases h <;> exact first.outcome_binary second rfl rfl

/-- Nesting to the right gives what taking the values from left to right does. -/
theorem comesTo_nestRight (h : Homogeneous symbol inject op) (first : e.ComesTo b (inject x))
    (rest : List (Expr × α)) (values : ∀ p ∈ rest, p.1.ComesTo b (inject p.2)) :
    (Expr.nestRight symbol e (rest.map Prod.fst)).ComesTo b
      (inject ((rest.map Prod.snd).foldl op x)) := by
  have grouped {g : Expr} {z : α} (hg : g.ComesTo b (inject z)) :
      g.parenthesized.ComesTo b (inject z) := Expr.outcome_eval_group.trans hg
  induction rest generalizing e x with
  | nil => exact grouped first
  | cons p rest ih =>
    obtain ⟨hp, hrest⟩ := List.forall_mem_cons.mp values
    have := h.associative
    rw [List.map_cons, List.map_cons, List.foldl_cons, List.foldl_assoc]
    exact h.comesTo (grouped first) (ih hp hrest)

end Homogeneous

structure Operand {α : Type} (b : Bindings) (inject : α → Value) where
  source : String
  value : α
  evaluates : ∃ a, evaluate source b = .ok a ∧ a.value = some (inject value)

/-- Anything but a float stands under its own category. -/
theorem comesTo_of_evaluate {source : String} {b : Bindings} {e : Expr} {a : Annotation} {v : Value}
    (compiled : compile source = .ok e) (evaluated : evaluate source b = .ok a)
    (hvalue : a.value = some v) (hfloat : v.category ≠ .float) : e.ComesTo b v := by
  obtain ⟨ts, _, _, hparse⟩ := compile_eq_ok_iff.mp compiled
  obtain ⟨done, hresult⟩ := eq_result_of_evaluate compiled evaluated
  have hroot := (hparse.reports b).root done hparse.isNode
  have hown : a = .ofValue v := by
    subst hresult
    cases hremainder : (e.eval b).expr.isFloatRemainder with
    | true =>
      obtain ⟨x, hx⟩ := hroot.float hremainder
      rw [Expr.result, hx] at hvalue
      obtain rfl := Option.some.inj hvalue
      exact absurd rfl hfloat
    | false =>
      obtain ⟨w, hw⟩ := hroot.value hremainder
      rw [Expr.result, hw] at hvalue ⊢
      rw [Option.some.inj hvalue]
  rw [Expr.ComesTo, ← hown]
  exact (evaluate_eq_ok_iff compiled).mp evaluated

section Folding

variable {α : Type} {b : Bindings} {symbol : Symbol} {inject : α → Value} {op : α → α → α}

theorem Operand.exists_comesTo (h : Homogeneous symbol inject op) (x : Operand b inject) :
    ∃ e, compile x.source = .ok e ∧ e.ComesTo b (inject x.value) := by
  obtain ⟨a, evaluated, hvalue⟩ := x.evaluates
  cases compiled : compile x.source with
  | error => simp [evaluate, compiled] at evaluated
  | ok e =>
    exact ⟨e, rfl, comesTo_of_evaluate compiled evaluated hvalue (h.category_ne_float x.value)⟩

theorem evaluate_chain_eq_foldl (h : Homogeneous symbol inject op) (first : Operand b inject)
    (rest : List (Operand b inject)) :
    evaluate (chain symbol first.source (rest.map Operand.source)) b =
      .ok (.ofValue (inject ((rest.map Operand.value).foldl op first.value))) := by
  choose tree compiled comes using fun x : Operand b inject => x.exists_comesTo h
  have hchain := compile_chain h.isBinary (compiled first)
    (rest.map fun x => (x.source, tree x)) (by simp [compiled])
  have hvalue := h.comesTo_nestRight (comes first)
    (rest.map fun x => (tree x, x.value)) (by simp [comes])
  simp only [List.map_map, Function.comp_def] at hchain hvalue
  exact (evaluate_eq_ok_iff hchain).mpr hvalue

def Operand.joined (h : Homogeneous symbol inject op) (x y : Operand b inject) :
    Operand b inject where
  source := chain symbol x.source [y.source]
  value := op x.value y.value
  evaluates := ⟨_, evaluate_chain_eq_foldl h x [y], rfl⟩

/-- The value of a chain is that of its operands taken from left to right, as if all parentheses
were written out, for any number of operands. -/
theorem evaluate_chain (h : Homogeneous symbol inject op) (first : Operand b inject)
    (rest : List (Operand b inject)) :
    evaluate (chain symbol first.source (rest.map Operand.source)) b =
        .ok (.ofValue (inject ((rest.map Operand.value).foldl op first.value))) ∧
      evaluate (leftNested symbol first.source (rest.map Operand.source)) b =
        .ok (.ofValue (inject ((rest.map Operand.value).foldl op first.value))) := by
  refine ⟨evaluate_chain_eq_foldl h first rest, ?_⟩
  induction rest generalizing first with
  | nil =>
    obtain ⟨e, compiled, comes⟩ := first.exists_comesTo h
    exact (evaluate_eq_ok_iff compiled).mpr comes
  | cons next rest ih => exact ih (first.joined h next)

/-- A sum that overflows on its way, with an operand that is itself an expression. -/
theorem overflowingSum_folds :
    Homogeneous .plus Value.integer (· + ·) ∧
      evaluate "(a) + (1 - 2) + (a)" ⟨[("a", .integer Int64.maxValue)]⟩ =
        .ok (.ofValue (.integer (Int64.maxValue + -1 + Int64.maxValue))) ∧
      evaluate "((a) + (1 - 2)) + (a)" ⟨[("a", .integer Int64.maxValue)]⟩ =
        .ok (.ofValue (.integer (Int64.maxValue + -1 + Int64.maxValue))) := by
  let outer : Operand ⟨[("a", .integer Int64.maxValue)]⟩ Value.integer :=
    ⟨"a", Int64.maxValue, .ofValue (.integer Int64.maxValue), by decide +kernel, rfl⟩
  let inner : Operand ⟨[("a", .integer Int64.maxValue)]⟩ Value.integer :=
    ⟨"1 - 2", -1, .ofValue (.integer (-1)), by decide +kernel, rfl⟩
  have hchain : chain .plus "a" ["1 - 2", "a"] = "(a) + (1 - 2) + (a)" := by decide +kernel
  have hnested : leftNested .plus "a" ["1 - 2", "a"] = "((a) + (1 - 2)) + (a)" := by
    decide +kernel
  rw [← hchain, ← hnested]
  exact ⟨.sum, evaluate_chain .sum outer [inner, outer]⟩

end Folding
end Formula
