import Formula.Compile
import Formula.Proofs.Meaning
import Formula.Proofs.Operations

/-! Trees that come to values. What a node comes to is told from the values that its operands come
to, whatever the node has held before. -/
namespace Formula

/-- Where the operands hold values that the symbol admits, it computes with them. -/
theorem Symbol.apply_ofValue {symbol : Symbol} {v w : Value} (h : symbol.isBinary = true)
    (admits : symbol.admits v.category w.category = true) (b : Bindings) (name : Option String)
    (own : Annotation) :
    symbol.apply b name own (.ofValue v) (.ofValue w) = symbol.binary v w := by
  have hadmits : symbol.admits (.ofValue v : Annotation).category
      (.ofValue w : Annotation).category = true := admits
  rw [apply, if_pos hadmits, operate_of_isBinary h rfl rfl]

namespace Expr

/-- The evaluation of the tree succeeds and leaves a value at its root, under the value's own
category. -/
def ComesTo (b : Bindings) (e : Expr) (v : Value) : Prop :=
  (e.eval b).outcome = .ok (.ofValue v)

variable {b : Bindings} {symbol : Symbol} {name : Option String} {own : Annotation} {l r : Expr}
  {v w : Value}

theorem comesTo_literal (v : Value) : (literal v).ComesTo b v := rfl

theorem comesTo_reference {x : String} (h : b.lookup x = some (some v)) :
    (node .reference (some x) own .empty .empty).ComesTo b v := by
  have hresolve : Symbol.resolve b x = .ok (.ofValue v) := by
    rw [Symbol.resolve_eq_lookup, h]
  rw [ComesTo, outcome_eval_node]
  exact hresolve

/-- A group comes to what its inside comes to, failures included. -/
theorem outcome_eval_group :
    ((node .group name own .empty r).eval b).outcome = (r.eval b).outcome := by
  rw [outcome_eval_node]
  cases (r.eval b).outcome <;> rfl

namespace ComesTo

theorem outcome_unary (h : r.ComesTo b v) :
    ((node symbol name own .empty r).eval b).outcome =
      symbol.apply b name own .blank (.ofValue v) := by
  rw [outcome_eval_node, h]
  rfl

theorem outcome_binary (hl : l.ComesTo b v) (hr : r.ComesTo b w) (hbinary : symbol.isBinary = true)
    (admits : symbol.admits v.category w.category = true) :
    ((node symbol name own l r).eval b).outcome = symbol.binary v w := by
  rw [outcome_eval_node, hl, hr, ← Symbol.apply_ofValue hbinary admits b name own]
  rfl

end ComesTo
end Expr

/-- A source that compiles comes to what its tree comes to. -/
theorem evaluate_eq_ok_iff {source : String} {b : Bindings} {e : Expr} {a : Annotation}
    (compiled : compile source = .ok e) :
    evaluate source b = .ok a ↔ (e.eval b).outcome = .ok a := by
  simp only [evaluate, compiled]
  rcases e.eval b with ⟨result, _ | failure⟩ <;> simp [Evaluation.outcome]

end Formula
