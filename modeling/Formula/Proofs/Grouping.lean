import Formula.Proofs.Substitution

/-! Groups put around parts of a tree. A group passes on what its inside comes to, value, category
and failure, so evaluation does not see it. -/
namespace Formula

/-- The second tree is the first one with groups around any of its parts, any number around each. -/
inductive Grouped : Expr → Expr → Prop where
  | empty : Grouped .empty .empty
  | node {symbol : Symbol} {name : Option String} {own : Annotation} {l l' r r' : Expr}
      (left : Grouped l l') (right : Grouped r r') :
      Grouped (.node symbol name own l r) (.node symbol name own l' r')
  | group {e e' : Expr} (name : Option String) (own : Annotation) (inside : Grouped e e') :
      Grouped e (.node .group name own .empty e')

namespace Grouped

variable {lookup : String → Option (Option Value)} {e e' : Expr}

theorem outcome_evalFrom_group (name : Option String) (own : Annotation) :
    ((Expr.node .group name own .empty e).evalFrom lookup).outcome =
      (e.evalFrom lookup).outcome := by
  rw [Expr.outcome_evalFrom_node]
  cases (e.evalFrom lookup).outcome <;> rfl

theorem outcome_evalFrom (h : Grouped e e') :
    (e'.evalFrom lookup).outcome = (e.evalFrom lookup).outcome := by
  induction h with
  | empty => rfl
  | node _ _ ihl ihr => rw [Expr.outcome_evalFrom_node, Expr.outcome_evalFrom_node, ihl, ihr]
  | group name own _ ih => rw [outcome_evalFrom_group, ih]

end Grouped

/-- Grouping makes no difference to what a tree comes to, under a map or under anything else that
answers to the names of variables. -/
theorem outcome_eq_of_grouped {e e' : Expr} (grouped : Grouped e e') :
    (∀ b : Bindings, (e'.eval b).outcome = (e.eval b).outcome) ∧
      ∀ lookup, (e'.evalFrom lookup).outcome = (e.evalFrom lookup).outcome := by
  constructor
  · intro b
    rw [e'.eval_eq_evalFrom, e.eval_eq_evalFrom]
    exact grouped.outcome_evalFrom
  · intro lookup
    exact grouped.outcome_evalFrom

/-- The tree of `x % 2.5`. -/
def plainRemainder : Expr := .operation .modulo (.reference "x") (.literal (.float 2.5))

/-- The tree of `((x) % ((2.5)))`. -/
def groupedRemainder : Expr :=
  (Expr.operation .modulo (Expr.reference "x").parenthesized
    (Expr.literal (.float 2.5)).parenthesized.parenthesized).parenthesized

theorem groupedRemainder_outcome :
    compile "x % 2.5" = .ok plainRemainder ∧ compile "((x) % ((2.5)))" = .ok groupedRemainder ∧
      Grouped plainRemainder groupedRemainder ∧
      (plainRemainder.eval ⟨[("x", .double 8.5)]⟩).outcome = .ok ⟨some (.float 1.0), .integer⟩ ∧
      (groupedRemainder.eval ⟨[("x", .double 8.5)]⟩).outcome =
        (plainRemainder.eval ⟨[("x", .double 8.5)]⟩).outcome := by
  have grouped : Grouped plainRemainder groupedRemainder :=
    .group _ _ (.node (.group _ _ (.node .empty .empty))
      (.group _ _ (.group _ _ (.node .empty .empty))))
  exact ⟨by decide +kernel, by decide +kernel, grouped, rfl, (outcome_eq_of_grouped grouped).1 _⟩

end Formula
