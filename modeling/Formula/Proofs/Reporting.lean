import Formula.Proofs.Compilation
import Formula.Proofs.Meaning
import Formula.Proofs.Operations

/-! What evaluations report. After an evaluation every node holds a value under the category of that
value, except where a remainder of numbers that are not both integers is passed on: it is a float
and is reported as an integer. -/
namespace Formula

def Annotation.isWhole (a : Annotation) : Bool := a.value.any Value.isWhole

/-- Whether an evaluated tree is a remainder of two numbers that are not both integers, or passes
one on by groups and positive signs. -/
def Expr.isFloatRemainder : Expr → Bool
  | .empty => false
  | .node symbol _ _ left right =>
    match symbol with
    | .modulo => !(left.note.isWhole && right.note.isWhole)
    | .group | .positive => right.isFloatRemainder
    | _ => false

structure Expr.Reported (e : Expr) : Prop where
  float : e.isFloatRemainder = true → ∃ x, e.note = ⟨some (.float x), .integer⟩
  value : e.isFloatRemainder = false → ∃ v, e.note = .ofValue v
  truth : ∀ symbol, e.symbol? = some symbol → symbol.givesTruth = true → e.note.category = .bool
  remainder : e.symbol? = some .modulo → e.note.category = .integer

theorem Expr.Reported.present {e : Expr} (h : e.Reported) :
    e.note.value ≠ none ∧ e.note.category ≠ .null := by
  cases hfloat : e.isFloatRemainder with
  | true =>
    obtain ⟨x, hx⟩ := h.float hfloat
    rw [hx]
    exact ⟨nofun, nofun⟩
  | false =>
    obtain ⟨v, hv⟩ := h.value hfloat
    rw [hv]
    exact ⟨nofun, v.category_ne_null⟩

namespace Symbol

variable {symbol : Symbol} {b : Bindings} {name : Option String} {a own left right : Annotation}

/-- An operation on two operands that gives something has found both of them. -/
theorem results_apply (binary : symbol.isBinary = true)
    (h : symbol.apply b name own left right = .ok a) :
    ∃ s t, symbol.Results s t (left.isWhole && right.isWhole) (.ok a) := by
  have hoperate := operate_of_apply h
  obtain ⟨v, w, hv, hw⟩ := exists_operands binary hoperate
  rw [operate_of_isBinary binary hv hw] at hoperate
  have hwhole : (left.isWhole && right.isWhole) = (v.isWhole && w.isWhole) := by
    simp [hv, hw, Annotation.isWhole]
  rw [hwhole, ← hoperate]
  exact ⟨_, _, results_binary symbol v w⟩

theorem reference_result (h : Symbol.reference.apply b name own left right = .ok a) :
    ∃ v, a = .ofValue v := by
  have hresolve : resolve b (name.getD "") = .ok a := operate_of_apply h
  unfold resolve at hresolve
  split at hresolve
  · cases hresolve
  · split at hresolve
    · cases hresolve
    · exact ⟨_, (Except.ok.inj hresolve).symm⟩

theorem prefixed_result (prefixed : symbol = .negative ∨ symbol = .invert)
    (h : symbol.apply b name own left right = .ok a) :
    ∃ v t, a = .ofValue v ∧ symbol.prefixType? t = some v.type := by
  have hoperate := operate_of_apply h
  cases hright : right.value with
  | none => rcases prefixed with rfl | rfl <;> simp [operate, hright] at hoperate
  | some v =>
    have hunary : symbol.unary v = .ok a := by
      rcases prefixed with rfl | rfl <;> simpa [operate, hright] using hoperate
    obtain ⟨x, rfl, typed⟩ := unary_result hunary
    exact ⟨x, v.type, rfl, typed⟩

end Symbol

namespace Expr

variable {b : Bindings} {symbol : Symbol} {name : Option String} {a own : Annotation}
  {left right : Expr}

theorem reported_value {v : Value} (other : symbol ≠ .modulo)
    (float : (node symbol name (.ofValue v) left right).isFloatRemainder = false)
    (truth : symbol.givesTruth = true → v.category = .bool) :
    (node symbol name (.ofValue v) left right).Reported := by
  refine ⟨fun h => ?_, fun _ => ⟨v, rfl⟩, ?_, fun h => absurd (Option.some.inj h) other⟩
  · cases float.symm.trans h
  · rintro s ⟨⟩ gives
    exact truth gives

/-- Groups and positive signs report what their operand does. -/
theorem Reported.pass (h : right.Reported) (passes : symbol = .group ∨ symbol = .positive) :
    (node symbol name right.note left right).Reported := by
  rcases passes with rfl | rfl <;>
  · refine ⟨h.float, h.value, ?_, nofun⟩
    rintro s ⟨⟩ ⟨⟩

theorem isFloatRemainder_join (binary : symbol.isBinary = true) (other : symbol ≠ .modulo) :
    (node symbol name own left right).isFloatRemainder = false := by
  cases symbol with
  | modulo => exact absurd rfl other
  | reference | literal | group | invert | positive | negative => cases binary
  | _ => rfl

theorem reported_join {s t : ValueType} (binary : symbol.isBinary = true)
    (h : symbol.Results s t (left.note.isWhole && right.note.isWhole) (.ok a)) :
    (node symbol name a left right).Reported := by
  cases h with
  | value x typed other =>
    refine reported_value other (isFloatRemainder_join binary other) fun truth => ?_
    exact Value.category_eq_bool (Symbol.eq_bool_of_joinType? typed truth)
  | remainder n _ symbol_eq both =>
    subst symbol_eq
    refine ⟨fun h => ?_, fun _ => ⟨_, rfl⟩, ?_, fun _ => rfl⟩
    · simp [isFloatRemainder, both] at h
    · rintro s ⟨⟩ ⟨⟩
  | floatRemainder x _ symbol_eq either =>
    subst symbol_eq
    refine ⟨fun _ => ⟨x, rfl⟩, fun h => ?_, ?_, fun _ => rfl⟩
    · simp [isFloatRemainder, either] at h
    · rintro s ⟨⟩ ⟨⟩

def Reports (b : Bindings) (e : Expr) : Prop :=
  e.Finishes b → ∀ node ∈ (e.eval b).expr.postorder, node.Reported

theorem Reports.root {e : Expr} (h : e.Reports b) (done : e.Finishes b) (hnode : e.isNode = true) :
    (e.eval b).expr.Reported :=
  h done _ (mem_postorder (by simpa using hnode))

theorem reports_empty : empty.Reports b := by
  rintro _ _ ⟨⟩

/-- A node adds to what its operands report what it reports itself. -/
theorem reports_node (hleft : left.Reports b) (hright : right.Reports b)
    (root : ∀ a, right.Finishes b →
      symbol.apply b name own (left.result b) (right.result b) = .ok a →
      (node symbol name a (left.eval b).expr (right.eval b).expr).Reported) :
    (node symbol name own left right).Reports b := by
  intro done x hx
  obtain ⟨hl, hr, a, happly, hexpr⟩ := done.operands
  rw [hexpr] at hx
  simp only [postorder, List.mem_append, List.mem_singleton] at hx
  rcases hx with (hx | hx) | rfl
  · exact hleft hl x hx
  · exact hright hr x hx
  · exact root a hr happly

theorem reports_pass (passes : symbol = .group ∨ symbol = .positive) (h : right.Reports b)
    (hnode : right.isNode = true) : (operation symbol .empty right).Reports b := by
  refine reports_node reports_empty h fun a done happly => ?_
  have ha : right.result b = a := by
    have hoperate := Symbol.operate_of_apply happly
    rcases passes with rfl | rfl <;> exact Except.ok.inj hoperate
  rw [← ha]
  exact (h.root done hnode).pass passes

theorem reports_prefixed (prefixed : symbol = .negative ∨ symbol = .invert) (h : right.Reports b) :
    (operation symbol .empty right).Reports b := by
  refine reports_node reports_empty h fun a _ happly => ?_
  obtain ⟨v, t, rfl, typed⟩ := Symbol.prefixed_result prefixed happly
  refine reported_value ?_ ?_ fun truth => ?_
  · rcases prefixed with rfl | rfl <;> decide
  · rcases prefixed with rfl | rfl <;> rfl
  · exact Value.category_eq_bool (Symbol.eq_bool_of_prefixType? typed truth)

end Expr

/-- Whatever the grammar makes a tree reports as it should. -/
theorem Parses.reports {tier : Tier} {ts : List Token} {e : Expr} (h : Parses tier ts e)
    (b : Bindings) : e.Reports b := by
  induction h with
  | identifier =>
    refine Expr.reports_node Expr.reports_empty Expr.reports_empty fun a _ happly => ?_
    obtain ⟨v, rfl⟩ := Symbol.reference_result happly
    exact Expr.reported_value nofun rfl nofun
  | literal =>
    refine Expr.reports_node Expr.reports_empty Expr.reports_empty fun a _ happly => ?_
    obtain rfl := Except.ok.inj happly
    exact Expr.reported_value nofun rfl nofun
  | group _ inner _ ih => exact Expr.reports_pass (.inl rfl) ih inner.isNode
  | signed sign _ operand ih =>
    cases sign with
    | positive => exact Expr.reports_pass (.inr rfl) ih operand.isNode
    | negative => exact Expr.reports_prefixed (.inl rfl) ih
  | invert _ _ ih => exact Expr.reports_prefixed (.inr rfl) ih
  | join _ _ operator _ ihl ihr =>
    have hbinary := Tier.isBinary_of_joiner? operator
    refine Expr.reports_node ihl ihr fun a _ happly => ?_
    obtain ⟨s, t, results⟩ := Symbol.results_apply hbinary happly
    exact Expr.reported_join hbinary results
  | descend _ _ ih => exact ih

theorem Expr.symbol?_eval (b : Bindings) (e : Expr) : (e.eval b).expr.symbol? = e.symbol? := by
  cases e with
  | empty => rfl
  | node symbol name note left right =>
    simp only [eval]
    repeat' split
    all_goals rfl

theorem eq_result_of_evaluate {source : String} {b : Bindings} {e : Expr} {a : Annotation}
    (compiled : compile source = .ok e) (h : evaluate source b = .ok a) :
    e.Finishes b ∧ a = e.result b := by
  simp only [evaluate, compiled] at h
  unfold Expr.Finishes Expr.result
  split at h
  · cases h
  · next hrun =>
    rw [hrun]
    exact ⟨rfl, (Except.ok.inj h).symm⟩

theorem Parses.assembled {tier : Tier} {ts : List Token} {e : Expr} (h : Parses tier ts e) :
    Assembled e := by
  induction h with
  | identifier => exact .reference _
  | literal => exact .literal _
  | group _ _ _ ih | signed _ _ _ ih | invert _ _ ih => exact .operation _ .empty ih
  | join _ _ _ _ ihl ihr => exact .operation _ ihl ihr
  | descend _ _ ih => exact ih

/-- What a source compiles to reports at every node as it should, however often it has been
evaluated before. So a source never comes to nothing, and it comes to a truth value or an integer
where its root says so. -/
theorem eval_reports {source : String} {e : Expr} (compiled : compile source = .ok e)
    (history : List Bindings) (b : Bindings) :
    (e.after history).Reports b ∧
      ∀ a, evaluate source b = .ok a → a.value ≠ none ∧ a.category ≠ .null ∧
        (∀ symbol, e.symbol? = some symbol → symbol.givesTruth = true → a.category = .bool) ∧
        (e.symbol? = some .modulo → a.category = .integer) := by
  have hrule := compiles_compile source
  rw [compiled] at hrule
  cases hrule with
  | tree _ _ _ _ parses =>
  have hreports := parses.reports b
  constructor
  · intro done
    have hfresh := (faithful_eval parses.assembled history b).fresh done
    rw [hfresh]
    exact hreports (by rwa [Expr.Finishes, hfresh] at done)
  · intro a ha
    obtain ⟨done, rfl⟩ := eq_result_of_evaluate compiled ha
    have hroot := hreports.root done parses.isNode
    rw [← e.symbol?_eval b]
    exact ⟨hroot.present.1, hroot.present.2, hroot.truth, hroot.remainder⟩

/-- The tree of `-(a % 2) < +(a % 2)`. -/
def signedRemainders : Expr :=
  .operation .less
    (.operation .negative .empty (.operation .group .empty
      (.operation .modulo (.reference "a") (.literal (.integer 2)))))
    (.operation .positive .empty (.operation .group .empty
      (.operation .modulo (.reference "a") (.literal (.integer 2)))))

theorem signedRemainders_reported :
    compile "-(a % 2) < +(a % 2)" = .ok signedRemainders ∧
      (signedRemainders.after [⟨[("a", .text "x")]⟩]).Finishes ⟨[("a", .double 7.5)]⟩ ∧
      (∀ node ∈ ((signedRemainders.after [⟨[("a", .text "x")]⟩]).eval
        ⟨[("a", .double 7.5)]⟩).expr.postorder, node.Reported) ∧
      ∃ a, evaluate "-(a % 2) < +(a % 2)" ⟨[("a", .double 7.5)]⟩ = .ok a ∧ a.category = .bool := by
  have compiled : compile "-(a % 2) < +(a % 2)" = .ok signedRemainders := by decide +kernel
  have done : (signedRemainders.after [⟨[("a", .text "x")]⟩]).Finishes
      ⟨[("a", .double 7.5)]⟩ := by
    unfold Expr.Finishes
    decide +kernel
  have evaluated : evaluate "-(a % 2) < +(a % 2)" ⟨[("a", .double 7.5)]⟩ =
      .ok (.ofValue (.bool true)) := by decide +kernel
  obtain ⟨reports, outcome⟩ :=
    eval_reports compiled [⟨[("a", .text "x")]⟩] ⟨[("a", .double 7.5)]⟩
  exact ⟨compiled, done, reports done, _, evaluated, (outcome _ evaluated).2.2.1 .less rfl rfl⟩

end Formula
