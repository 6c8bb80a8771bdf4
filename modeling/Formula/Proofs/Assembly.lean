import Formula.Proofs.EvaluationRules

/-! Trees as callers put them together, and what holds of every node of such a tree however often
it has been evaluated before. -/
namespace Formula

/-- The trees that leaves, operations with or without their operands, signs and evaluations make. -/
inductive Assembled : Expr → Prop where
  | empty : Assembled .empty
  | literal (v : Value) : Assembled (.literal v)
  | reference (name : String) : Assembled (.reference name)
  | operation (symbol : Symbol) {l r : Expr} (left : Assembled l) (right : Assembled r) :
      Assembled (.operation symbol l r)
  | withSign (sign : Sign) {e : Expr} (operand : Assembled e) : Assembled (e.withSign sign)
  | eval (b : Bindings) {e : Expr} (tree : Assembled e) : Assembled (e.eval b).expr

namespace Expr

/-- A tree after a history of evaluations, failed ones included. -/
def after (e : Expr) (history : List Bindings) : Expr :=
  history.foldl (fun e b => (e.eval b).expr) e

/-- Every node has a symbol and holds something of which a property holds. -/
def Each (P : Symbol → Annotation → Prop) : Expr → Prop
  | .empty => True
  | .node symbol _ note left right => P symbol note ∧ left.Each P ∧ right.Each P

theorem Each.note {P : Annotation → Prop} {e : Expr} (h : e.Each fun _ => P) (blank : P .blank) :
    P e.note := by
  cases e with
  | empty => exact blank
  | node => exact h.1

end Expr

structure Stable (P : Symbol → Annotation → Prop) : Prop where
  blank : ∀ symbol, P symbol .blank
  literal : ∀ v, P .literal (.ofValue v)
  step : ∀ b symbol name own (left right : Expr) result, left.Each P → right.Each P →
    P symbol own → symbol.apply b name own left.note right.note = .ok result → P symbol result

section Stable

variable {P : Symbol → Annotation → Prop} {e : Expr}

theorem Runs.each {b : Bindings} {run : Evaluation} (h : Runs b e run) (stable : Stable P)
    (he : e.Each P) : run.expr.Each P := by
  induction h with
  | empty => trivial
  | left _ ih => exact ⟨he.1, ih he.2.1, he.2.2⟩
  | right _ _ ihl ihr | fault _ _ _ ihl ihr => exact ⟨he.1, ihl he.2.1, ihr he.2.2⟩
  | done _ _ applied ihl ihr =>
    have hleft := ihl he.2.1
    have hright := ihr he.2.2
    exact ⟨stable.step _ _ _ _ _ _ _ hleft hright he.1 applied, hleft, hright⟩

theorem Expr.Each.operation {l r : Expr} (stable : Stable P) (symbol : Symbol) (hl : l.Each P)
    (hr : r.Each P) : (Expr.operation symbol l r).Each P :=
  ⟨stable.blank symbol, hl, hr⟩

theorem Expr.Each.withSign (stable : Stable P) (sign : Sign) (h : e.Each P) :
    (e.withSign sign).Each P := by
  cases e with
  | empty => exact .operation stable _ trivial trivial
  | node symbol name note l r =>
    rw [Expr.withSign]
    split
    · exact ⟨h.1, .operation stable _ trivial h.2.1, h.2.2⟩
    · exact .operation stable _ trivial h

/-- Every node of an assembled tree has every stable property. -/
theorem Assembled.each (h : Assembled e) (stable : Stable P) : e.Each P := by
  induction h with
  | empty => trivial
  | literal v => exact ⟨stable.literal v, trivial, trivial⟩
  | reference => exact ⟨stable.blank _, trivial, trivial⟩
  | operation symbol _ _ ihl ihr => exact .operation stable symbol ihl ihr
  | withSign sign _ ih => exact ih.withSign stable sign
  | eval b _ ih => exact (runs_eval b _).each stable ih

theorem Assembled.after (h : Assembled e) (history : List Bindings) :
    Assembled (e.after history) := by
  induction history generalizing e with
  | nil => exact h
  | cons b history ih => exact ih (.eval b h)

end Stable
end Formula
