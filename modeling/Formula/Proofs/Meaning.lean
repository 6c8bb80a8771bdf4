import Formula.Proofs.Assembly

/-! The meaning of a tree, read off its symbols, names, operands and literal values alone. An
evaluation reports it and leaves it on every node, whatever earlier evaluations have left there. -/
namespace Formula

/-- The value that a name is bound to: none if it is unbound, and none inside if it is bound to
something that stands for no value. -/
def Bindings.lookup (b : Bindings) (name : String) : Option (Option Value) :=
  (b.find? name).map Parameter.normalize?

def Annotation.ofValue? : Option Value → Annotation
  | none => .blank
  | some v => .ofValue v

/-- A tree without what its nodes hold, except for the values of literals. -/
inductive Skeleton where
  | absent
  | node (symbol : Symbol) (name : Option String) (constant : Option Value) (left right : Skeleton)
  deriving DecidableEq, Repr

def Symbol.constant? (symbol : Symbol) (note : Annotation) : Option Value :=
  if symbol = .literal then note.value else none

def Expr.skeleton : Expr → Skeleton
  | .empty => .absent
  | .node symbol name note left right =>
    .node symbol name (symbol.constant? note) left.skeleton right.skeleton

/-- What a symbol makes of its operands: it checks their categories first. -/
def Symbol.denote (lookup : String → Option (Option Value)) (symbol : Symbol)
    (name : Option String) (constant : Option Value) (left right : Annotation) :
    Except EvalError Annotation :=
  if symbol.admits left.category right.category then
    match symbol with
    | .reference =>
      match lookup (name.getD "") with
      | none => .error (.missingParameter (name.getD ""))
      | some none => .error (.unsupportedType (name.getD ""))
      | some (some v) => .ok (.ofValue v)
    | .literal => .ok (.ofValue? constant)
    | .group | .positive => .ok right
    | .negative | .invert =>
      match right.value with
      | some v => symbol.unary v
      | none => .error (symbol.mismatch left.category right.category)
    | _ =>
      match left.value, right.value with
      | some v, some w => symbol.binary v w
      | _, _ => .error (symbol.mismatch left.category right.category)
  else .error (symbol.mismatch left.category right.category)

def Skeleton.meaning (lookup : String → Option (Option Value)) :
    Skeleton → Except EvalError Annotation
  | .absent => .ok .blank
  | .node symbol name constant left right => do
    let l ← left.meaning lookup
    let r ← right.meaning lookup
    symbol.denote lookup name constant l r

/-- Every node holds the meaning of its own subtree. -/
def Expr.Annotated (lookup : String → Option (Option Value)) : Expr → Prop
  | .empty => True
  | .node symbol name note left right =>
    (Expr.node symbol name note left right).skeleton.meaning lookup = .ok note ∧
      left.Annotated lookup ∧ right.Annotated lookup

def OwnLiteral (symbol : Symbol) (note : Annotation) : Prop :=
  symbol = .literal → note = .ofValue? note.value

theorem Symbol.eq_of_apply_literal {b : Bindings} {name : Option String}
    {own left right result : Annotation}
    (h : Symbol.literal.apply b name own left right = .ok result) : own = result := by
  simpa [apply, admits, operate] using h

theorem stable_ownLiteral : Stable OwnLiteral where
  blank _ _ := rfl
  literal _ _ := rfl
  step b symbol name own left right result _ _ hown happly := by
    rintro rfl
    obtain rfl := Symbol.eq_of_apply_literal happly
    exact hown rfl

theorem Symbol.resolve_eq_lookup (b : Bindings) (name : String) :
    resolve b name = match b.lookup name with
      | none => .error (.missingParameter name)
      | some none => .error (.unsupportedType name)
      | some (some v) => .ok (.ofValue v) := by
  unfold resolve Bindings.lookup
  cases b.find? name with
  | none => rfl
  | some p => cases hp : p.normalize? <;> simp [hp]

theorem Symbol.apply_eq_denote {symbol : Symbol} {own : Annotation} (h : OwnLiteral symbol own)
    (b : Bindings) (name : Option String) (left right : Annotation) :
    symbol.apply b name own left right =
      symbol.denote b.lookup name (symbol.constant? own) left right := by
  unfold apply denote
  split
  · cases symbol with
    | reference => exact resolve_eq_lookup b (name.getD "")
    | literal => exact congrArg Except.ok (h rfl)
    | _ => rfl
  · rfl

namespace Runs

variable {b : Bindings} {e : Expr} {run : Evaluation}

theorem skeleton_eq (h : Runs b e run) : run.expr.skeleton = e.skeleton := by
  induction h with
  | empty => rfl
  | left _ ih => simp only [Expr.skeleton, ih]
  | right _ _ ihl ihr | fault _ _ _ ihl ihr => simp only [Expr.skeleton, ihl, ihr]
  | @done symbol _ own result _ _ _ _ _ _ applied ihl ihr =>
    have hconstant : symbol.constant? result = symbol.constant? own := by
      unfold Symbol.constant?
      split
      · next hliteral =>
        subst hliteral
        obtain rfl := Symbol.eq_of_apply_literal applied
        rfl
      · rfl
    simp only [Expr.skeleton, ihl, ihr, hconstant]

theorem outcome_eq_meaning (h : Runs b e run) (own : e.Each OwnLiteral) :
    run.outcome = e.skeleton.meaning b.lookup := by
  induction h with
  | empty => rfl
  | left _ ih =>
    have hfirst := ih own.2.1
    simp only [Evaluation.outcome] at hfirst ⊢
    rw [Expr.skeleton, Skeleton.meaning, ← hfirst]
    rfl
  | right _ _ ihl ihr =>
    have hfirst := ihl own.2.1
    have hsecond := ihr own.2.2
    simp only [Evaluation.outcome] at hfirst hsecond ⊢
    rw [Expr.skeleton, Skeleton.meaning, ← hfirst, ← hsecond]
    rfl
  | fault _ _ applied ihl ihr | done _ _ applied ihl ihr =>
    have hfirst := ihl own.2.1
    have hsecond := ihr own.2.2
    simp only [Evaluation.outcome] at hfirst hsecond ⊢
    rw [Symbol.apply_eq_denote own.1] at applied
    rw [Expr.skeleton, Skeleton.meaning, ← hfirst, ← hsecond]
    exact applied.symm

theorem annotated (h : Runs b e run) (own : e.Each OwnLiteral) (complete : run.failure = none) :
    run.expr.Annotated b.lookup := by
  induction h with
  | empty => trivial
  | left | right | fault => cases complete
  | done first second applied ihl ihr =>
    have hnode := Runs.done first second applied
    have hmeaning := hnode.outcome_eq_meaning own
    rw [← hnode.skeleton_eq] at hmeaning
    exact ⟨hmeaning.symm, ihl own.2.1 rfl, ihr own.2.2 rfl⟩

end Runs

/-- A tree whose nodes hold their meanings is determined by its skeleton. -/
theorem Expr.Annotated.eq_of_skeleton_eq {lookup : String → Option (Option Value)} {e e' : Expr}
    (h : e.Annotated lookup) (h' : e'.Annotated lookup) (heq : e.skeleton = e'.skeleton) :
    e = e' := by
  induction e generalizing e' with
  | empty =>
    cases e' with
    | empty => rfl
    | node => cases heq
  | node symbol name note left right ihl ihr =>
    cases e' with
    | empty => cases heq
    | node symbol' name' note' left' right' =>
      have hnote : note = note' := by
        have hmeaning := h.1
        rw [heq, h'.1] at hmeaning
        exact (Except.ok.inj hmeaning).symm
      injection heq with hsymbol hname _ hleft hright
      rw [hsymbol, hname, hnote, ihl h.2.1 h'.2.1 hleft, ihr h.2.2 h'.2.2 hright]

theorem Expr.skeleton_after (e : Expr) (history : List Bindings) :
    (e.after history).skeleton = e.skeleton := by
  induction history generalizing e with
  | nil => rfl
  | cons b history ih => exact (ih _).trans (runs_eval b e).skeleton_eq

/-- An evaluation that agrees with the meaning of a tree and owes nothing to earlier ones. -/
structure Faithful (e : Expr) (b : Bindings) (run : Evaluation) : Prop where
  outcome : run.outcome = e.skeleton.meaning b.lookup
  annotated : run.failure = none → run.expr.Annotated b.lookup
  skeleton : run.expr.skeleton = e.skeleton
  again : run.expr.eval b = run
  fresh : run.failure = none → run = e.eval b

/-- Evaluating an assembled tree, after any history of evaluations, agrees with its meaning. -/
theorem faithful_eval {e : Expr} (assembled : Assembled e) (history : List Bindings)
    (b : Bindings) : Faithful e b ((e.after history).eval b) := by
  have hown := assembled.each stable_ownLiteral
  have hafter := (assembled.after history).each stable_ownLiteral
  have hfresh := runs_eval b e
  have hrun := runs_eval b (e.after history)
  have hskeleton := e.skeleton_after history
  have houtcome := hrun.outcome_eq_meaning hafter
  rw [hskeleton] at houtcome
  refine ⟨houtcome, hrun.annotated hafter, hrun.skeleton_eq.trans hskeleton, hrun.again.eval_eq, ?_⟩
  intro hcomplete
  have hsame : ((e.after history).eval b).failure = (e.eval b).failure :=
    Evaluation.failure_eq_of_outcome_eq (houtcome.trans (hfresh.outcome_eq_meaning hown).symm)
  have hexpr : ((e.after history).eval b).expr = (e.eval b).expr := by
    apply (hrun.annotated hafter hcomplete).eq_of_skeleton_eq
    · exact hfresh.annotated hown (hsame ▸ hcomplete)
    · rw [hrun.skeleton_eq, hfresh.skeleton_eq, hskeleton]
  calc (e.after history).eval b
      = ⟨((e.after history).eval b).expr, ((e.after history).eval b).failure⟩ := rfl
    _ = ⟨(e.eval b).expr, (e.eval b).failure⟩ := by rw [hexpr, hsame]

/-- The tree of `-a % 2`. -/
def signedRemainder : Expr :=
  .withSign .negative (.operation .modulo (.reference "a") (.literal (.integer 2)))

theorem signedRemainder_faithful :
    Assembled signedRemainder ∧
      signedRemainder.skeleton.meaning (Bindings.lookup ⟨[("a", .integer 7)]⟩) =
        .ok (.ofValue (.integer (-1))) ∧
      Faithful signedRemainder ⟨[("a", .integer 7)]⟩
        ((signedRemainder.after [.empty, ⟨[("a", .text "x")]⟩]).eval ⟨[("a", .integer 7)]⟩) := by
  have assembled : Assembled signedRemainder :=
    .withSign _ (.operation _ (.reference "a") (.literal _))
  exact ⟨assembled, rfl, faithful_eval assembled _ _⟩

end Formula
