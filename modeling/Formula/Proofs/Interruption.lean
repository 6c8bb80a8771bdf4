import Mathlib.Logic.ExistsUnique
import Formula.Proofs.Meaning

/-! Evaluations that fail. They break off at one node: those evaluated before it hold their own
results, and from that node on every node holds what it held before. -/
namespace Formula

namespace Expr

/-- The operands of a node come to their results, and what its symbol makes of them is a failure. -/
def FailsAtRoot (b : Bindings) (f : EvalError) : Expr → Prop
  | .empty => False
  | .node symbol name note left right =>
    left.Finishes b ∧ right.Finishes b ∧
      symbol.apply b name note (left.result b) (right.result b) = .error f

theorem FailsAtRoot.failure_eq {b : Bindings} {f : EvalError} {e : Expr} (h : e.FailsAtRoot b f) :
    (e.eval b).failure = some f := by
  cases e with
  | empty => exact h.elim
  | node symbol name note left right =>
    obtain ⟨hleft, hright, happly⟩ := h
    rw [(Runs.fault hleft.runs hright.runs happly).eval_eq]

end Expr

section Run

variable {b : Bindings} {e : Expr} {run : Evaluation} {f : EvalError}

/-- Where an evaluation succeeds, every node holds the result of its own subtree. -/
theorem Runs.notes_of_done (h : Runs b e run) (done : run.failure = none) :
    (∀ node ∈ e.postorder, node.Finishes b) ∧
      run.expr.postorder.map Expr.note = e.postorder.map (Expr.result b) := by
  induction h with
  | empty => exact ⟨by simp [Expr.postorder], rfl⟩
  | left | right | fault => cases done
  | @done symbol name own result l l' r r' first second applied ihl ihr =>
    obtain ⟨hl, hlnotes⟩ := ihl rfl
    obtain ⟨hr, hrnotes⟩ := ihr rfl
    have heval := (Runs.done first second applied).eval_eq
    constructor
    · intro node hnode
      simp only [Expr.postorder, List.mem_append, List.mem_singleton] at hnode
      rcases hnode with (hnode | hnode) | rfl
      · exact hl node hnode
      · exact hr node hnode
      · rw [Expr.Finishes, heval]
    · simp [Expr.postorder, hlnotes, hrnotes, Expr.result, heval]

/-- Where an evaluation fails, the nodes fall into those in front of the failing one, which hold
their results, and the others, which hold what they held. -/
theorem Runs.exists_break (h : Runs b e run) (failed : run.failure = some f) :
    ∃ before node behind, e.postorder = before ++ node :: behind ∧ node.FailsAtRoot b f ∧
      (∀ x ∈ before, x.Finishes b) ∧ run.expr.postorder.map Expr.note =
        before.map (Expr.result b) ++ (node :: behind).map Expr.note := by
  induction h with
  | empty | done => cases failed
  -- A tree of which an operand breaks off does so where the operand does.
  | @left symbol name own l l' r e first ih =>
    obtain ⟨before, node, behind, hsplit, hfails, hbefore, hnotes⟩ := ih failed
    refine ⟨before, node, behind ++ r.postorder ++ [.node symbol name own l r], ?_, hfails,
      hbefore, ?_⟩
    · simp [Expr.postorder, hsplit]
    · simp [Expr.postorder, hnotes]
  | @right symbol name own l l' r r' e first second ihl ih =>
    obtain ⟨before, node, behind, hsplit, hfails, hbefore, hnotes⟩ := ih failed
    obtain ⟨hl, hlnotes⟩ := first.notes_of_done rfl
    refine ⟨l.postorder ++ before, node, behind ++ [.node symbol name own l r], ?_, hfails, ?_, ?_⟩
    · simp [Expr.postorder, hsplit]
    · exact fun x hx => (List.mem_append.mp hx).elim (hl x) (hbefore x)
    · simp [Expr.postorder, hnotes, hlnotes]
  | @fault symbol name own l l' r r' e first second refused =>
    obtain rfl := Option.some.inj failed
    obtain ⟨hl, hlnotes⟩ := first.notes_of_done rfl
    obtain ⟨hr, hrnotes⟩ := second.notes_of_done rfl
    refine ⟨l.postorder ++ r.postorder, .node symbol name own l r, [], rfl, ?_, ?_, ?_⟩
    · simpa [Expr.FailsAtRoot, Expr.Finishes, Expr.result, first.eval_eq, second.eval_eq]
    · exact fun x hx => (List.mem_append.mp hx).elim (hl x) (hr x)
    · simp [Expr.postorder, hlnotes, hrnotes]

end Run

theorem note_cases {b : Bindings} {nodes nodes' : List Expr} {k i : Nat} {old new : Expr}
    (notes : nodes'.map Expr.note =
      (nodes.take k).map (Expr.result b) ++ (nodes.drop k).map Expr.note)
    (hold : nodes[i]? = some old) (hnew : nodes'[i]? = some new) :
    new.note = old.result b ∨ new.note = old.note := by
  have hnote : ((nodes.take k).map (Expr.result b) ++ (nodes.drop k).map Expr.note)[i]? =
      some new.note := by
    rw [← notes, List.getElem?_map, hnew]
    rfl
  obtain ⟨hinside, _⟩ := List.getElem?_eq_some_iff.mp hold
  have hlength : ((nodes.take k).map (Expr.result b)).length = min k nodes.length := by simp
  by_cases hk : i < k
  · rw [List.getElem?_append_left (by omega), List.getElem?_map,
      List.getElem?_take_of_lt hk, hold] at hnote
    exact .inl (Option.some.inj hnote).symm
  · rw [Nat.min_eq_left (by omega)] at hlength
    rw [List.getElem?_append_right (by omega), hlength, List.getElem?_map, List.getElem?_drop,
      Nat.add_sub_cancel' (by omega), hold] at hnote
    exact .inr (Option.some.inj hnote).symm

structure BreaksOff (b : Bindings) (e : Expr) (f : EvalError) (k : Nat) : Prop where
  failing : ∃ node, e.postorder[k]? = some node ∧ node.FailsAtRoot b f
  finished : ∀ node ∈ e.postorder.take k, node.Finishes b
  notes : (e.eval b).expr.postorder.map Expr.note =
    (e.postorder.take k).map (Expr.result b) ++ (e.postorder.drop k).map Expr.note
  whole : ∀ (i : Nat) (old new : Expr), e.postorder[i]? = some old →
    (e.eval b).expr.postorder[i]? = some new → new.note = old.result b ∨ new.note = old.note
  skeleton : (e.eval b).expr.skeleton = e.skeleton

theorem BreaksOff.unique {b : Bindings} {e : Expr} {f : EvalError} {k k' : Nat}
    (h : BreaksOff b e f k) (h' : BreaksOff b e f k') : k = k' := by
  -- Of two such nodes the first would both fail and finish.
  have hnot : ∀ {m n}, BreaksOff b e f m → BreaksOff b e f n → ¬ m < n := by
    intro m n hm hn hlt
    obtain ⟨node, hnode, hfails⟩ := hm.failing
    have hmem : node ∈ e.postorder.take n := by
      apply List.mem_of_getElem? (i := m)
      rw [List.getElem?_take_of_lt hlt, hnode]
    cases (hn.finished node hmem).symm.trans hfails.failure_eq
  have := hnot h h'
  have := hnot h' h
  omega

/-- An evaluation that fails breaks off at exactly one node. -/
theorem exists_unique_break {b : Bindings} {e : Expr} {f : EvalError}
    (failed : (e.eval b).failure = some f) : ∃! k, BreaksOff b e f k := by
  have hrun := runs_eval b e
  obtain ⟨before, node, behind, hsplit, hfails, hbefore, hnotes⟩ := hrun.exists_break failed
  have hbreak : BreaksOff b e f before.length := by
    have hlist : (e.eval b).expr.postorder.map Expr.note =
        (e.postorder.take before.length).map (Expr.result b) ++
          (e.postorder.drop before.length).map Expr.note := by
      simpa [hsplit] using hnotes
    refine ⟨⟨node, by simp [hsplit], hfails⟩, ?_, hlist, ?_, hrun.skeleton_eq⟩
    · simpa [hsplit] using hbefore
    · intro i old new hold hnew
      exact note_cases hlist hold hnew
  exact ⟨before.length, hbreak, fun k hk => hk.unique hbreak⟩

/-- The tree of `(a + 1) * (b / c)` without its groups, as an earlier evaluation has left it. -/
def quotientProduct : Expr :=
  (Expr.operation .times (.operation .plus (.reference "a") (.literal (.integer 1)))
    (.operation .divide (.reference "b") (.reference "c"))).after
      [⟨[("a", .integer 2), ("b", .integer 7), ("c", .integer 2)]⟩]

theorem quotientProduct_breaks :
    (quotientProduct.eval ⟨[("a", .integer 5), ("b", .integer 1), ("c", .integer 0)]⟩).failure =
        some .divideByZero ∧
      ∃! k, BreaksOff ⟨[("a", .integer 5), ("b", .integer 1), ("c", .integer 0)]⟩
        quotientProduct .divideByZero k := by
  have failed : (quotientProduct.eval
      ⟨[("a", .integer 5), ("b", .integer 1), ("c", .integer 0)]⟩).failure =
        some .divideByZero := rfl
  exact ⟨failed, exists_unique_break failed⟩

end Formula
