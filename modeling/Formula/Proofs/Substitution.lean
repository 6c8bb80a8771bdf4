import Formula.Proofs.Composition
import Formula.Proofs.Typing

/-! Variables as values. Evaluation asks for the values of the variables that occur and for nothing
else, so literals of those values may stand in their places. -/
namespace Formula

section Sources

variable (lookup : String → Option (Option Value))

/-- What a node comes to where anything may answer to the names of variables. -/
def Symbol.applyFrom (symbol : Symbol) (name : Option String) (own left right : Annotation) :
    Except EvalError Annotation :=
  match symbol with
  | .reference =>
    match lookup (name.getD "") with
    | none => .error (.missingParameter (name.getD ""))
    | some none => .error (.unsupportedType (name.getD ""))
    | some (some v) => .ok (.ofValue v)
  | _ => symbol.apply .empty name own left right

namespace Expr

def evalFrom : Expr → Evaluation
  | .empty => ⟨.empty, none⟩
  | .node symbol name note left right =>
    match left.evalFrom with
    | ⟨left, some e⟩ => ⟨.node symbol name note left right, some e⟩
    | ⟨left, none⟩ =>
      match right.evalFrom with
      | ⟨right, some e⟩ => ⟨.node symbol name note left right, some e⟩
      | ⟨right, none⟩ =>
        match symbol.applyFrom lookup name note left.note right.note with
        | .ok result => ⟨.node symbol name result left right, none⟩
        | .error e => ⟨.node symbol name note left right, some e⟩

/-- The tree with literals in the places of its variables, as far as these have values. -/
def substitute : Expr → Expr
  | .empty => .empty
  | .node symbol name note left right =>
    match symbol, lookup (name.getD "") with
    | .reference, some (some v) => .literal v
    | _, _ => .node symbol name note left.substitute right.substitute

end Expr
end Sources

def Expr.VariablesAreLeaves : Expr → Prop
  | .empty => True
  | .node symbol _ _ left right =>
    (symbol = .reference → left = .empty ∧ right = .empty) ∧
      left.VariablesAreLeaves ∧ right.VariablesAreLeaves

section Symbols

variable {p q : String → Option (Option Value)} {symbol : Symbol} {name : Option String}
  {own l r : Annotation}

theorem Symbol.apply_eq_applyFrom (b : Bindings) :
    symbol.apply b name own l r = symbol.applyFrom b.lookup name own l r := by
  cases symbol with
  | reference => exact resolve_eq_lookup b (name.getD "")
  | _ => rfl

theorem Symbol.applyFrom_congr (h : symbol = .reference → q (name.getD "") = p (name.getD "")) :
    symbol.applyFrom q name own l r = symbol.applyFrom p name own l r := by
  cases symbol with
  | reference => simp only [applyFrom, h rfl]
  | _ => rfl

end Symbols

namespace Expr

variable {p q : String → Option (Option Value)} {e : Expr}

theorem eval_eq_evalFrom (b : Bindings) (e : Expr) : e.eval b = e.evalFrom b.lookup := by
  induction e with
  | empty => rfl
  | node symbol name own l r ihl ihr =>
    rw [eval, evalFrom, ihl, ihr]
    rcases l.evalFrom b.lookup with ⟨l', _ | e⟩
    case some => rfl
    rcases r.evalFrom b.lookup with ⟨r', _ | e⟩
    case some => rfl
    cases happly : symbol.applyFrom b.lookup name own l'.note r'.note <;>
      simp only [Symbol.apply_eq_applyFrom, happly]

/-- An evaluation depends on the answers to the names that occur alone. -/
theorem evalFrom_congr (agree : ∀ name ∈ e.names, q name = p name) : e.evalFrom q = e.evalFrom p := by
  induction e with
  | empty => rfl
  | node symbol name own l r ihl ihr =>
    simp only [names, List.mem_append] at agree
    have hl := ihl fun x hx => agree x (.inl (.inr hx))
    have hr := ihr fun x hx => agree x (.inr hx)
    have hown : symbol = .reference → q (name.getD "") = p (name.getD "") := by
      rintro rfl
      exact agree _ (by simp)
    simp only [evalFrom, hl, hr, Symbol.applyFrom_congr hown]

theorem outcome_evalFrom_node (symbol : Symbol) (name : Option String) (own : Annotation)
    (l r : Expr) :
    ((node symbol name own l r).evalFrom p).outcome = (do
      let x ← (l.evalFrom p).outcome
      let y ← (r.evalFrom p).outcome
      symbol.applyFrom p name own x y) := by
  rw [evalFrom]
  rcases l.evalFrom p with ⟨l', _ | e⟩
  case some => rfl
  rcases r.evalFrom p with ⟨r', _ | e⟩
  case some => rfl
  show Evaluation.outcome _ = symbol.applyFrom p name own l'.note r'.note
  cases happly : symbol.applyFrom p name own l'.note r'.note <;>
    simp only [happly, Evaluation.outcome, note_node]

theorem substitute_of_ne {symbol : Symbol} (h : symbol ≠ .reference) (name : Option String)
    (own : Annotation) (l r : Expr) :
    (node symbol name own l r).substitute p =
      .node symbol name own (l.substitute p) (r.substitute p) := by
  cases symbol with
  | reference => exact absurd rfl h
  | _ => rfl

/-- Literals of the values of its variables stand for them, whatever else is bound. -/
theorem outcome_evalFrom_substitute (leaves : e.VariablesAreLeaves)
    (bound : ∀ name ∈ e.names, ∃ v, p name = some (some v)) :
    ((e.substitute p).evalFrom q).outcome = (e.evalFrom p).outcome := by
  induction e with
  | empty => rfl
  | node symbol name own l r ihl ihr =>
    obtain ⟨hleaf, hleft, hright⟩ := leaves
    simp only [names, List.mem_append] at bound
    by_cases h : symbol = .reference
    · subst h
      obtain ⟨v, hv⟩ := bound (name.getD "") (by simp)
      obtain ⟨rfl, rfl⟩ := hleaf rfl
      rw [outcome_evalFrom_node]
      simp only [substitute, hv]
      show (Except.ok (.ofValue v) : Except EvalError Annotation) =
        Symbol.reference.applyFrom p name own .blank .blank
      simp only [Symbol.applyFrom, hv]
    · have hl := ihl hleft fun x hx => bound x (.inl (.inr hx))
      have hr := ihr hright fun x hx => bound x (.inr hx)
      have happly : symbol.applyFrom q name own = symbol.applyFrom p name own := by
        funext x y
        exact Symbol.applyFrom_congr fun h' => absurd h' h
      rw [substitute_of_ne h, outcome_evalFrom_node, outcome_evalFrom_node, hl, hr, happly]

end Expr

/-- The variables of a parse tree are leaves. -/
theorem Parses.variablesAreLeaves {tier : Tier} {ts : List Token} {e : Expr}
    (h : Parses tier ts e) : e.VariablesAreLeaves := by
  induction h with
  | identifier | literal => exact ⟨fun _ => ⟨rfl, rfl⟩, trivial, trivial⟩
  | group _ _ _ ih | invert _ _ ih => exact ⟨nofun, trivial, ih⟩
  | signed sign _ _ ih => exact ⟨by cases sign <;> nofun, trivial, ih⟩
  | join _ _ operator _ ihl ihr =>
    refine ⟨?_, ihl, ihr⟩
    rintro rfl
    cases Tier.isBinary_of_joiner? operator
  | descend _ _ ih => exact ih

/-- Bindings matter through the values of the variables that occur. An evaluation under a map is
one where the map answers to the names, and any two sources of answers that agree on the names of a
tree evaluate it alike. If all its variables, which are leaves, have values, then literals of these
may stand for them, and nothing else that is bound matters. -/
theorem evaluation_owes_values :
    (∀ (e : Expr) (b : Bindings), e.eval b = e.evalFrom b.lookup) ∧
      (∀ (source : String) (e : Expr), compile source = .ok e → e.VariablesAreLeaves) ∧
      (∀ (e : Expr) (p q : String → Option (Option Value)), e.VariablesAreLeaves →
        (∀ name ∈ e.names, ∃ v, p name = some (some v)) →
          ((e.substitute p).evalFrom q).outcome = (e.evalFrom p).outcome) ∧
      ∀ (e : Expr) (p q : String → Option (Option Value)),
        (∀ name ∈ e.names, q name = p name) → e.evalFrom q = e.evalFrom p := by
  refine ⟨fun e b => e.eval_eq_evalFrom b, ?_, ?_, ?_⟩
  · intro source e compiled
    obtain ⟨ts, _, _, hparse⟩ := compile_eq_ok_iff.mp compiled
    exact hparse.variablesAreLeaves
  · intro e p q leaves bound
    exact Expr.outcome_evalFrom_substitute leaves bound
  · intro e p q agree
    exact Expr.evalFrom_congr agree

/-- The tree of `x % 2.5 + name`. -/
def remainderPlusName : Expr :=
  .operation .plus (.operation .modulo (.reference "x") (.literal (.float 2.5))) (.reference "name")

/-- Something that answers to every name, to most of them without a value. -/
def talkative (name : String) : Option (Option Value) :=
  if name = "x" then some (some (.float 7.5))
  else if name = "name" then some (some (.text "n"))
  else some none

theorem remainderPlusName_owes_values :
    compile "x % 2.5 + name" = .ok remainderPlusName ∧
      remainderPlusName.VariablesAreLeaves ∧
      (∀ name ∈ remainderPlusName.names, ∃ v,
        Bindings.lookup ⟨[("x", .double 7.5), ("name", .json (.string "n"))]⟩ name =
          some (some v)) ∧
      (∀ name ∈ remainderPlusName.names, talkative name =
        Bindings.lookup ⟨[("x", .double 7.5), ("name", .json (.string "n"))]⟩ name) ∧
      (remainderPlusName.evalFrom talkative).outcome =
        .error (.typeMismatch .plus (some .integer) .text) ∧
      ((remainderPlusName.substitute talkative).evalFrom fun _ => none).outcome =
        (remainderPlusName.evalFrom talkative).outcome ∧
      remainderPlusName.evalFrom talkative =
        remainderPlusName.eval ⟨[("x", .double 7.5), ("name", .json (.string "n"))]⟩ := by
  obtain ⟨hmap, hcompiled, hsubstitute, hagree⟩ := evaluation_owes_values
  have compiled : compile "x % 2.5 + name" = .ok remainderPlusName := by decide +kernel
  have leaves := hcompiled _ _ compiled
  have hnames : remainderPlusName.names = ["x", "name"] := rfl
  have agree : ∀ name ∈ remainderPlusName.names, talkative name =
      Bindings.lookup ⟨[("x", .double 7.5), ("name", .json (.string "n"))]⟩ name := by
    rw [hnames]
    simp only [List.forall_mem_cons]
    exact ⟨rfl, rfl, nofun⟩
  have bound : ∀ name ∈ remainderPlusName.names, ∃ v, talkative name = some (some v) := by
    rw [hnames]
    simp only [List.forall_mem_cons]
    exact ⟨⟨_, rfl⟩, ⟨_, rfl⟩, nofun⟩
  refine ⟨compiled, leaves, fun name h => agree name h ▸ bound name h, agree, rfl, ?_, ?_⟩
  · exact hsubstitute _ _ _ leaves bound
  · rw [hmap]
    exact hagree _ _ _ agree

end Formula
