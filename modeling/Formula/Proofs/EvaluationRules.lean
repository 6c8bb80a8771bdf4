import Formula.Expr.Eval

/-! Evaluation by rules. A tree is evaluated by one derivation, on which every fact about what an
evaluation leaves is proved by induction. -/
namespace Formula

/-- What an evaluation reports: its failure, or what the root holds in the end. -/
def Evaluation.outcome (run : Evaluation) : Except EvalError Annotation :=
  match run.failure with
  | some e => .error e
  | none => .ok run.expr.note

theorem Evaluation.failure_eq_of_outcome_eq {run run' : Evaluation}
    (h : run.outcome = run'.outcome) : run.failure = run'.failure := by
  unfold outcome at h
  cases hrun : run.failure <;> cases hrun' : run'.failure <;> simp [hrun, hrun'] at h ⊢
  exact h

/-- What a node comes to: its first operand, its second, and what its symbol makes of the two. -/
theorem Expr.outcome_eval_node (b : Bindings) (symbol : Symbol) (name : Option String)
    (own : Annotation) (left right : Expr) :
    ((Expr.node symbol name own left right).eval b).outcome = (do
      let l ← (left.eval b).outcome
      let r ← (right.eval b).outcome
      symbol.apply b name own l r) := by
  rw [Expr.eval]
  rcases left.eval b with ⟨l, _ | e⟩
  case some => rfl
  rcases right.eval b with ⟨r, _ | e⟩
  case some => rfl
  show Evaluation.outcome _ = symbol.apply b name own l.note r.note
  cases happly : symbol.apply b name own l.note r.note <;>
    simp only [happly, Evaluation.outcome, note_node]

inductive Runs (b : Bindings) : Expr → Evaluation → Prop where
  | empty : Runs b .empty ⟨.empty, none⟩
  | left {symbol : Symbol} {name : Option String} {own : Annotation} {l l' r : Expr}
      {e : EvalError} (first : Runs b l ⟨l', some e⟩) :
      Runs b (.node symbol name own l r) ⟨.node symbol name own l' r, some e⟩
  | right {symbol : Symbol} {name : Option String} {own : Annotation} {l l' r r' : Expr}
      {e : EvalError} (first : Runs b l ⟨l', none⟩) (second : Runs b r ⟨r', some e⟩) :
      Runs b (.node symbol name own l r) ⟨.node symbol name own l' r', some e⟩
  | fault {symbol : Symbol} {name : Option String} {own : Annotation} {l l' r r' : Expr}
      {e : EvalError} (first : Runs b l ⟨l', none⟩) (second : Runs b r ⟨r', none⟩)
      (refused : symbol.apply b name own l'.note r'.note = .error e) :
      Runs b (.node symbol name own l r) ⟨.node symbol name own l' r', some e⟩
  | done {symbol : Symbol} {name : Option String} {own result : Annotation} {l l' r r' : Expr}
      (first : Runs b l ⟨l', none⟩) (second : Runs b r ⟨r', none⟩)
      (applied : symbol.apply b name own l'.note r'.note = .ok result) :
      Runs b (.node symbol name own l r) ⟨.node symbol name result l' r', none⟩

theorem runs_eval (b : Bindings) (e : Expr) : Runs b e (e.eval b) := by
  induction e with
  | empty => exact .empty
  | node symbol name own l r ihl ihr =>
    rw [Expr.eval]
    rcases hl : l.eval b with ⟨l', _ | e⟩
    case some => exact .left (hl ▸ ihl)
    rcases hr : r.eval b with ⟨r', _ | e⟩
    case some => exact .right (hl ▸ ihl) (hr ▸ ihr)
    cases happly : symbol.apply b name own l'.note r'.note with
    | error e => simpa only [happly] using .fault (hl ▸ ihl) (hr ▸ ihr) happly
    | ok result => simpa only [happly] using .done (hl ▸ ihl) (hr ▸ ihr) happly

namespace Runs

variable {b : Bindings} {e : Expr} {run : Evaluation}

theorem eval_eq (h : Runs b e run) : e.eval b = run := by
  induction h with
  | empty => rfl
  | left _ ih => simp only [Expr.eval, ih]
  | right _ _ ihl ihr => simp only [Expr.eval, ihl, ihr]
  | fault _ _ refused ihl ihr => simp only [Expr.eval, ihl, ihr, refused]
  | done _ _ applied ihl ihr => simp only [Expr.eval, ihl, ihr, applied]

end Runs

namespace Expr

/-- The subtrees of a tree, one for each node, in the order in which the nodes are evaluated: those
of the first operand, those of the second, and the node itself. -/
def postorder : Expr → List Expr
  | .empty => []
  | .node symbol name note left right =>
    left.postorder ++ right.postorder ++ [.node symbol name note left right]

/-- What the root of a tree holds once the tree has been evaluated by itself. -/
def result (b : Bindings) (e : Expr) : Annotation := (e.eval b).expr.note

def Finishes (b : Bindings) (e : Expr) : Prop := (e.eval b).failure = none

variable {b : Bindings} {e left right : Expr} {symbol : Symbol} {name : Option String}
  {own : Annotation}

theorem Finishes.runs (h : e.Finishes b) : Runs b e ⟨(e.eval b).expr, none⟩ := by
  rw [← h]
  exact runs_eval b e

theorem mem_postorder (h : e.isNode = true) : e ∈ e.postorder := by
  cases e with
  | empty => cases h
  | node => simp [postorder]

/-- A node that finishes does so by what its symbol makes of the results of its operands. -/
theorem Finishes.operands (h : (node symbol name own left right).Finishes b) :
    left.Finishes b ∧ right.Finishes b ∧ ∃ a,
      symbol.apply b name own (left.result b) (right.result b) = .ok a ∧
      ((node symbol name own left right).eval b).expr =
        .node symbol name a (left.eval b).expr (right.eval b).expr := by
  generalize hrun : ((node symbol name own left right).eval b).expr = e'
  have hruns := h.runs
  rw [hrun] at hruns
  cases hruns with
  | done first second applied =>
    have hl := first.eval_eq
    have hr := second.eval_eq
    simp only [Finishes, result, hl, hr]
    exact ⟨trivial, trivial, _, applied, rfl⟩

end Expr

/-- What a node comes to, it comes to again. -/
theorem Symbol.apply_result {symbol : Symbol} {b : Bindings} {name : Option String}
    {own left right result : Annotation} (h : symbol.apply b name own left right = .ok result) :
    symbol.apply b name result left right = .ok result := by
  unfold apply at h ⊢
  split at h
  · next hadmits =>
    rw [if_pos hadmits]
    cases symbol with
    | literal => rfl
    | _ => exact h
  · cases h

/-- Evaluating what an evaluation has left changes nothing, and fails as before. -/
theorem Runs.again {b : Bindings} {e : Expr} {run : Evaluation} (h : Runs b e run) :
    Runs b run.expr run := by
  induction h with
  | empty => exact .empty
  | left _ ih => exact .left ih
  | right _ _ ihl ihr => exact .right ihl ihr
  | fault _ _ refused ihl ihr => exact .fault ihl ihr refused
  | done _ _ applied ihl ihr => exact .done ihl ihr (Symbol.apply_result applied)

end Formula
