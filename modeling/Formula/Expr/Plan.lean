import Formula.Expr
import Formula.Token.Cursor

/-!
Planning tokens into an expression. Operators bind at six levels; each level takes its first operand
from the next tighter one and at most one operator of its own, whose second operand is planned at
the level itself, so that equal operators nest to the right. Every step reports the tokens it
leaves, which are a tail of those it was given.
-/

namespace Formula

/-- A level of operators, the loosest first. -/
inductive Level where
  | or
  | and
  | not
  | comparison
  | additive
  | multiplicative
  deriving DecidableEq, Repr

namespace Level

def lowest : Level := .or

def next? : Level → Option Level
  | .or => some .and
  | .and => some .not
  | .not => some .comparison
  | .comparison => some .additive
  | .additive => some .multiplicative
  | .multiplicative => none

def rank : Level → Nat
  | .or => 6
  | .and => 5
  | .not => 4
  | .comparison => 3
  | .additive => 2
  | .multiplicative => 1

def symbol? : Level → Kind → Option Symbol
  | .or, .or => some .or
  | .and, .and => some .and
  | .not, .not => some .invert
  | .comparison, .greater => some .greater
  | .comparison, .greaterEqual => some .greaterEqual
  | .comparison, .less => some .less
  | .comparison, .lessEqual => some .lessEqual
  | .comparison, .equal => some .equal
  | .comparison, .notEqual => some .notEqual
  | .additive, .plus => some .plus
  | .additive, .minus => some .minus
  | .multiplicative, .times => some .times
  | .multiplicative, .divide => some .divide
  | .multiplicative, .modulo => some .modulo
  | _, _ => none

theorem rank_of_next? {level tighter : Level} (h : level.next? = some tighter) :
    level.rank = tighter.rank + 1 := by
  cases level <;> simp [next?] at h <;> subst h <;> rfl

theorem rank_pos (level : Level) : 0 < level.rank := by cases level <;> decide

theorem rank_le (level : Level) : level.rank ≤ 6 := by cases level <;> decide

end Level

inductive PlanError where
  /-- A group is followed by something other than its closing parenthesis. -/
  | missingParen (found : Kind) (span : Span)
  /-- A token stands where a value has to begin, or behind the whole expression. -/
  | unplannable (t : Token)
  deriving DecidableEq, Repr

def PlanError.diagnostic : PlanError → Diagnostic
  | .missingParen found span =>
    ⟨"expected `)` to close the group, found " ++ found.display,
      some "close the parenthesis opened here", some ⟨"group ends here", span⟩⟩
  | .unplannable t =>
    ⟨"unable to plan token kind: '" ++ t.kind.display ++ "', value: '" ++ Token.valueText t.value ++
        "'",
      some "a value, variable, group or unary operator is expected here",
      some ⟨"not a value", t.span⟩⟩

structure Planned (ts : List Token) where
  outcome : Except PlanError Expr
  rest : List Token
  suffix : rest <:+ ts

namespace Planned

/-- The result for more tokens, of which those in front have been read. -/
def widen {ts us : List Token} (p : Planned us) (h : us <:+ ts) : Planned ts :=
  ⟨p.outcome, p.rest, p.suffix.trans h⟩

def map {ts : List Token} (f : Expr → Expr) (p : Planned ts) : Planned ts :=
  ⟨p.outcome.map f, p.rest, p.suffix⟩

end Planned

/-- The leaf that a token is, if it carries a value of its kind. -/
def Token.leaf? (t : Token) : Option Expr :=
  match t.kind, t.value with
  | .identifier, some (.text name) => some (.reference name)
  | .bool, some (.bool b) => some (.literal (.bool b))
  | .integer, some (.integer n) => some (.literal (.integer n))
  | .float, some (.float x) => some (.literal (.float x))
  | .string, some (.text s) => some (.literal (.text s))
  | _, _ => none

def Kind.sign? : Kind → Option Sign
  | .plus => some .positive
  | .minus => some .negative
  | _ => none

def Planned.close {ts : List Token} (sourceLength : Nat) (inner : Planned ts) : Planned ts :=
  match inner.outcome with
  | .error e => ⟨.error e, inner.rest, inner.suffix⟩
  | .ok e =>
    match h : inner.rest with
    | [] => ⟨.error (.missingParen .eof ⟨sourceLength, 0⟩), [], h ▸ inner.suffix⟩
    | t :: more =>
      ⟨if t.kind = .closeParen then .ok (.operation .group .empty e)
        else .error (.missingParen t.kind t.span),
        more, ((List.suffix_cons t more).trans (h ▸ inner.suffix))⟩

mutual

def planLevel (sourceLength : Nat) (level : Level) (ts : List Token) : Planned ts :=
  let left : Planned ts := match h : level.next? with
    | some tighter =>
      have := Level.rank_of_next? h
      planLevel sourceLength tighter ts
    | none =>
      have := level.rank_pos
      planOperand sourceLength ts
  match left.outcome, h : left.rest with
  | .ok e, t :: more =>
    match level.symbol? t.kind with
    | some symbol =>
      have hsuffix : t :: more <:+ ts := h ▸ left.suffix
      have := hsuffix.length_le
      have := level.rank_le
      ((planLevel sourceLength level more).map (.operation symbol e)).widen
        ((List.suffix_cons t more).trans hsuffix)
    | none => left
  | _, _ => left
termination_by 7 * ts.length + level.rank
decreasing_by
  · omega
  · omega
  · simp only [List.length_cons] at *
    omega

/-- Plans one operand: a leaf, a group, or an operand behind a sign. In front of the operator that
inverts a truth value, which belongs to a looser level, the operand is missing. -/
def planOperand (sourceLength : Nat) (ts : List Token) : Planned ts :=
  match ts with
  | [] => ⟨.ok .empty, [], List.suffix_refl _⟩
  | t :: more =>
    if t.kind = .openParen then
      ((planLevel sourceLength .lowest more).close sourceLength).widen (List.suffix_cons t more)
    else match t.leaf?, t.kind.sign? with
      | some e, _ => ⟨.ok e, more, List.suffix_cons t more⟩
      | none, some sign =>
        ((planLevel sourceLength .multiplicative more).map (Expr.withSign sign)).widen
          (List.suffix_cons t more)
      | none, none =>
        if t.kind = .not then ⟨.ok .empty, t :: more, List.suffix_refl _⟩
        else ⟨.error (.unplannable t), more, List.suffix_cons t more⟩
termination_by 7 * ts.length
decreasing_by all_goals simp only [List.length_cons, Level.lowest, Level.rank]; omega

end

namespace Cursor

/-- Plans an expression from the cursor on and leaves the cursor behind it. -/
def build (c : Cursor) : Except PlanError Expr × Cursor :=
  let planned := planLevel c.sourceLength .lowest c.rest
  (planned.outcome, c.leaving planned.rest)

/-- Plans an expression that nothing but the end of the source may follow. -/
def buildAll (c : Cursor) : Except PlanError Expr × Cursor :=
  match c.build with
  | (.error e, behind) => (.error e, behind)
  | (.ok e, behind) =>
    match behind.current? with
    | none => (.ok e, behind)
    | some t => (if t.kind = .eof then .ok e else .error (.unplannable t), behind.advance)

end Cursor
end Formula
