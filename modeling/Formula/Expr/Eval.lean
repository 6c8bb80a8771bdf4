import Formula.Expr.Operation

/-!
Evaluation of a whole tree: the first operand, then the second, then the node itself, each node
keeping what it came to. A failure leaves the nodes that were not reached as they were.
-/

namespace Formula

structure Evaluation where
  expr : Expr
  failure : Option EvalError
  deriving DecidableEq, Repr

namespace Expr

def eval (b : Bindings) : Expr → Evaluation
  | .empty => ⟨.empty, none⟩
  | .node symbol name note left right =>
    match left.eval b with
    | ⟨left, some e⟩ => ⟨.node symbol name note left right, some e⟩
    | ⟨left, none⟩ =>
      match right.eval b with
      | ⟨right, some e⟩ => ⟨.node symbol name note left right, some e⟩
      | ⟨right, none⟩ =>
        match symbol.apply b name note left.note right.note with
        | .ok result => ⟨.node symbol name result left right, none⟩
        | .error e => ⟨.node symbol name note left right, some e⟩

/-- The symbols of the nodes that an evaluation completes, in its order, each with the category it
is given. -/
def completed (b : Bindings) : Expr → List (Symbol × Category)
  | .empty => []
  | .node symbol name note left right =>
    left.completed b ++
      if (left.eval b).failure.isSome then []
      else right.completed b ++
        match (Expr.node symbol name note left right).eval b with
        | ⟨e, none⟩ => [(symbol, e.note.category)]
        | _ => []

@[simp] theorem eval_empty (b : Bindings) : Expr.empty.eval b = ⟨.empty, none⟩ := rfl

/-- A tree that has a root keeps it. -/
@[simp] theorem isNode_eval (b : Bindings) (e : Expr) : (e.eval b).expr.isNode = e.isNode := by
  cases e with
  | empty => rfl
  | node symbol name note left right =>
    simp only [eval]
    repeat' split
    all_goals rfl

end Expr
end Formula
