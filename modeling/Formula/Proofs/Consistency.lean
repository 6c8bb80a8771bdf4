import Formula.Proofs.Assembly
import Formula.Proofs.Operations

/-! Categories and values. Symbols check the categories of their operands and compute with the
values; since a value is always of the sort that its category says, a computation that passed its
check never meets operands it cannot use. -/
namespace Formula

/-- Two categories of one sort: numbers, texts, truth values or nothing. -/
structure Category.Alike (c d : Category) : Prop where
  number : c.isNumber = d.isNumber
  text : c.isText = d.isText
  bool : c.isBool = d.isBool

theorem Category.Alike.refl (c : Category) : c.Alike c := ⟨rfl, rfl, rfl⟩

/-- The category is null exactly where there is no value, and of the value's sort otherwise. -/
structure Annotation.Consistent (a : Annotation) : Prop where
  null_iff : a.category = .null ↔ a.value = none
  alike : ∀ v, a.value = some v → a.category.Alike v.category

/-- An error that operands of the right sorts may still lead to. -/
def EvalError.Permitted : EvalError → Prop
  | .typeMismatch _ _ _ => False
  | .missingParameter _ | .unsupportedType _ | .divideByZero => True

def Settled : Except EvalError Annotation → Prop
  | .ok a => a.Consistent
  | .error e => e.Permitted

namespace Annotation

theorem consistent_blank : Annotation.blank.Consistent :=
  ⟨by simp [blank], by simp [blank]⟩

theorem consistent_of_alike {v : Value} {c : Category} (h : c.Alike v.category) :
    Consistent ⟨some v, c⟩ := by
  refine ⟨?_, fun w hw => Option.some.inj hw ▸ h⟩
  obtain ⟨hnumber, htext, hbool⟩ := h
  cases c <;> cases v <;> simp_all [Category.isNumber, Category.isText, Category.isBool]

@[simp] theorem consistent_ofValue (v : Value) : (ofValue v).Consistent :=
  consistent_of_alike (.refl _)

theorem Consistent.exists_value {a : Annotation} (h : a.Consistent) (hc : a.category ≠ .null) :
    ∃ v, a.value = some v ∧ a.category.Alike v.category := by
  have hne : a.value ≠ none := fun hnone => hc (h.null_iff.mpr hnone)
  obtain ⟨v, hv⟩ := Option.ne_none_iff_exists'.mp hne
  exact ⟨v, hv, h.alike v hv⟩

end Annotation

namespace Symbol

variable {symbol : Symbol} {v w : Value}

@[simp] theorem settled_truth (b : Bool) : Settled (truth b) := Annotation.consistent_ofValue _

@[simp] theorem settled_whole (n : Int64) : Settled (whole n) := Annotation.consistent_ofValue _

@[simp] theorem settled_real (x : Float) : Settled (real x) := Annotation.consistent_ofValue _

@[simp] theorem settled_divideByZero : Settled (.error .divideByZero) := trivial

/-- Operands that have a type together are computed with. -/
theorem Results.settled {s t type : ValueType} {whole : Bool} {r : Except EvalError Annotation}
    (h : symbol.Results s t whole r) (typed : symbol.joinType? s t = some type) : Settled r := by
  cases h with
  | value | remainder => exact Annotation.consistent_ofValue _
  | floatRemainder => exact Annotation.consistent_of_alike ⟨rfl, rfl, rfl⟩
  | divideByZero => exact settled_divideByZero
  | mismatch _ _ untyped => cases untyped.symm.trans typed

theorem settled_binary (h : symbol.isBinary = true)
    (admits : symbol.admits v.category w.category = true) : Settled (symbol.binary v w) := by
  rw [admits_eq_isSome_joinType? h] at admits
  obtain ⟨type, htype⟩ := Option.isSome_iff_exists.mp admits
  exact (results_binary symbol v w).settled htype

theorem settled_unary {c : Category} (h : symbol = .negative ∨ symbol = .invert)
    (admits : symbol.admits c v.category = true) : Settled (symbol.unary v) := by
  rcases h with rfl | rfl
  · cases v with
    | integer => exact settled_whole _
    | float => exact settled_real _
    | _ => cases admits
  · cases v with
    | bool => exact settled_truth _
    | _ => cases admits

theorem settled_resolve (b : Bindings) (name : String) : Settled (resolve b name) := by
  unfold resolve
  split
  · trivial
  · split
    · trivial
    · exact Annotation.consistent_ofValue _

/-- The check looks at sorts only. -/
theorem admits_congr {c c' d d' : Category} (hc : c.Alike c') (hd : d.Alike d') :
    symbol.admits c d = symbol.admits c' d' := by
  cases symbol <;>
    simp only [admits, Category.bothNumbers, Category.bothOrdered, Category.bothBools,
      Category.bothComparable, hc.number, hc.text, hc.bool, hd.number, hd.text, hd.bool]

theorem ne_null_of_admits {c d : Category} (h : symbol.isBinary = true)
    (admits : symbol.admits c d = true) : c ≠ .null ∧ d ≠ .null := by
  constructor
  · rintro rfl
    cases symbol with
    | reference | literal | group | invert | positive | negative => cases h
    | _ => cases d <;> cases admits
  · rintro rfl
    cases symbol with
    | reference | literal | group | invert | positive | negative => cases h
    | _ => cases c <;> cases admits

section Operands

variable {b : Bindings} {name : Option String} {own left right : Annotation}

/-- With consistent operands that pass the check, an operation is settled. -/
theorem settled_operate (hown : own.Consistent) (hl : left.Consistent) (hr : right.Consistent)
    (admits : symbol.admits left.category right.category = true) :
    Settled (symbol.operate b name own left right) := by
  by_cases hbinary : symbol.isBinary = true
  · obtain ⟨hleft, hright⟩ := ne_null_of_admits hbinary admits
    obtain ⟨v, hv, hv'⟩ := hl.exists_value hleft
    obtain ⟨w, hw, hw'⟩ := hr.exists_value hright
    rw [operate_of_isBinary hbinary hv hw]
    rw [admits_congr hv' hw'] at admits
    exact settled_binary hbinary admits
  cases symbol with
  | reference => exact settled_resolve b _
  | literal => exact hown
  | group | positive => exact hr
  | negative | invert =>
    have hright : right.category ≠ .null := by
      intro hnull
      rw [hnull] at admits
      cases admits
    obtain ⟨v, hv, hv'⟩ := hr.exists_value hright
    rw [admits_congr (.refl left.category) hv'] at admits
    simp only [operate, hv]
    exact settled_unary (by decide) admits
  | _ => exact absurd rfl hbinary

end Operands

end Symbol

theorem stable_consistent : Stable fun _ => Annotation.Consistent where
  blank _ := Annotation.consistent_blank
  literal v := Annotation.consistent_ofValue v
  step b symbol name own left right result hleft hright hown happly := by
    unfold Symbol.apply at happly
    split at happly
    · next hadmits =>
      have hsettled : Settled (symbol.operate b name own left.note right.note) :=
        Symbol.settled_operate hown (hleft.note Annotation.consistent_blank)
          (hright.note Annotation.consistent_blank) hadmits
      rw [happly] at hsettled
      exact hsettled
    · cases happly

/-- A node whose operands hold their results, about to compute its own. -/
structure Site where
  symbol : Symbol
  name : Option String
  own : Annotation
  left : Annotation
  right : Annotation

namespace Site

/-- Whether the node's symbol checks nothing or the check of its operands passes. -/
def passes (s : Site) : Bool := s.symbol.admits s.left.category s.right.category

def operate (b : Bindings) (s : Site) : Except EvalError Annotation :=
  s.symbol.operate b s.name s.own s.left s.right

/-- The operands are consistent, and once the check has passed, so is the result, unless the
computation fails for another reason than their sorts. -/
structure Sound (b : Bindings) (s : Site) : Prop where
  left : s.left.Consistent
  right : s.right.Consistent
  settled : s.passes = true → Settled (s.operate b)

end Site

inductive Reaches (b : Bindings) : Expr → Site → Prop where
  | here {symbol : Symbol} {name : Option String} {own : Annotation} {left right : Expr}
      (first : (left.eval b).failure = none) (second : (right.eval b).failure = none) :
      Reaches b (.node symbol name own left right)
        ⟨symbol, name, own, (left.eval b).expr.note, (right.eval b).expr.note⟩
  | left {symbol : Symbol} {name : Option String} {own : Annotation} {left right : Expr}
      {s : Site} (inner : Reaches b left s) : Reaches b (.node symbol name own left right) s
  | right {symbol : Symbol} {name : Option String} {own : Annotation} {left right : Expr}
      {s : Site} (first : (left.eval b).failure = none) (inner : Reaches b right s) :
      Reaches b (.node symbol name own left right) s

section Reached

variable {b : Bindings} {e : Expr} {s : Site} {run : Evaluation}

theorem Reaches.sound (h : Reaches b e s) (he : e.Each fun _ => Annotation.Consistent) :
    s.Sound b := by
  induction h with
  | @here _ _ _ left right _ _ =>
    have hleft : (left.eval b).expr.note.Consistent :=
      ((runs_eval b left).each stable_consistent he.2.1).note Annotation.consistent_blank
    have hright : (right.eval b).expr.note.Consistent :=
      ((runs_eval b right).each stable_consistent he.2.2).note Annotation.consistent_blank
    exact ⟨hleft, hright, Symbol.settled_operate he.1 hleft hright⟩
  | left _ ih => exact ih he.2.1
  | right _ _ ih => exact ih he.2.2

/-- A failure is that of a node the evaluation gets to. -/
theorem Runs.exists_reaches (h : Runs b e run) {f : EvalError} (failed : run.failure = some f) :
    ∃ s, Reaches b e s ∧
      s.symbol.apply b s.name s.own s.left s.right = .error f := by
  induction h with
  | empty => cases failed
  | left _ ih =>
    obtain ⟨s, hs, happly⟩ := ih failed
    exact ⟨s, .left hs, happly⟩
  | right first _ _ ih =>
    obtain ⟨s, hs, happly⟩ := ih failed
    exact ⟨s, .right (by rw [first.eval_eq]) hs, happly⟩
  | fault first second refused =>
    obtain rfl := Option.some.inj failed
    refine ⟨_, .here (by rw [first.eval_eq]) (by rw [second.eval_eq]), ?_⟩
    rw [first.eval_eq, second.eval_eq]
    exact refused
  | done => cases failed

/-- A mismatch at a sound node is that of its check. -/
theorem Site.Sound.not_passes (h : s.Sound b) {symbol : Symbol} {left : Option Category}
    {right : Category}
    (mismatch : s.symbol.apply b s.name s.own s.left s.right =
      .error (.typeMismatch symbol left right)) :
    s.passes = false ∧
      .typeMismatch symbol left right = s.symbol.mismatch s.left.category s.right.category := by
  unfold Symbol.apply at mismatch
  split at mismatch
  · next hpasses =>
    have hsettled := h.settled hpasses
    rw [Site.operate, mismatch] at hsettled
    exact hsettled.elim
  · next hpasses =>
    exact ⟨by simpa [Site.passes] using hpasses, (Except.error.inj mismatch).symm⟩

end Reached

/-- An evaluation in which categories speak for values: at every node it gets to, at every node it
leaves behind, and in every mismatch it reports. -/
structure SoundEvaluation (e : Expr) (b : Bindings) : Prop where
  sound : ∀ s, Reaches b e s → s.Sound b
  consistent : (e.eval b).expr.Each fun _ => Annotation.Consistent
  mismatch : ∀ symbol left right, (e.eval b).failure = some (.typeMismatch symbol left right) →
    ∃ s, Reaches b e s ∧ s.passes = false ∧
      .typeMismatch symbol left right = s.symbol.mismatch s.left.category s.right.category

/-- An assembled tree is evaluated soundly, however often it has been evaluated before. -/
theorem sound_eval {e : Expr} (assembled : Assembled e) (history : List Bindings) (b : Bindings) :
    SoundEvaluation (e.after history) b := by
  have hafter := (assembled.after history).each stable_consistent
  have hrun := runs_eval b (e.after history)
  refine ⟨fun s hs => hs.sound hafter, hrun.each stable_consistent hafter, ?_⟩
  intro symbol left right hfailure
  obtain ⟨s, hs, happly⟩ := hrun.exists_reaches hfailure
  exact ⟨s, hs, (hs.sound hafter).not_passes happly⟩

/-- The tree of `(a % 2.0) + 1`, whose remainder is a float that is reported as an integer. -/
def floatRemainder : Expr :=
  .operation .plus
    (.operation .group .empty (.operation .modulo (.reference "a") (.literal (.float 2.0))))
    (.literal (.integer 1))

theorem floatRemainder_sound :
    Assembled floatRemainder ∧
      (∃ s, Reaches ⟨[("a", .double 7.5)]⟩ (floatRemainder.after [⟨[("a", .text "x")]⟩]) s ∧
        s.symbol = .modulo ∧ s.passes = true) ∧
      SoundEvaluation (floatRemainder.after [⟨[("a", .text "x")]⟩]) ⟨[("a", .double 7.5)]⟩ := by
  have assembled : Assembled floatRemainder :=
    .operation _ (.operation _ .empty (.operation _ (.reference "a") (.literal _))) (.literal _)
  have reached : Reaches ⟨[("a", .double 7.5)]⟩ (floatRemainder.after [⟨[("a", .text "x")]⟩])
      ⟨.modulo, none, .blank, .ofValue (.float 7.5), .ofValue (.float 2.0)⟩ :=
    .left (.right rfl (.here rfl rfl))
  exact ⟨assembled, ⟨_, reached, rfl, rfl⟩, sound_eval assembled _ _⟩

end Formula
