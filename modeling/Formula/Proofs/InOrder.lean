import Formula.Proofs.Adjacency
import Formula.Proofs.Planning

/-! Trees read in order. Whatever tokens a plan is given, checked or not, the tree that it comes to
says in order exactly what the tokens say that it has read. -/
namespace Formula

/-- What a token says wherever it stands: its kind and, of a name or a literal, its value. -/
structure Content where
  kind : Kind
  value : Option Value
  deriving DecidableEq, Repr

def Kind.isOperand (k : Kind) : Bool := k = .identifier || k.isLiteral

def Token.content (t : Token) : Content := ⟨t.kind, if t.kind.isOperand then t.value else none⟩

/-- The kind of token that an operation is written as; leaves and groups are no operations. -/
def Symbol.kind : Symbol → Kind
  | .reference | .literal | .group => .illegal
  | .equal => .equal
  | .notEqual => .notEqual
  | .greater => .greater
  | .less => .less
  | .greaterEqual => .greaterEqual
  | .lessEqual => .lessEqual
  | .and => .and
  | .or => .or
  | .plus | .positive => .plus
  | .minus | .negative => .minus
  | .times => .times
  | .divide => .divide
  | .modulo => .modulo
  | .invert => .not

def Expr.inOrder : Expr → List Content
  | .empty => []
  | .node symbol name note left right =>
    match symbol with
    | .reference => [⟨.identifier, name.map .text⟩]
    | .literal => (note.value.map fun v => ⟨v.literalKind, some v⟩).toList
    | .group => ⟨.openParen, none⟩ :: (right.inOrder ++ [⟨.closeParen, none⟩])
    | _ => left.inOrder ++ ⟨symbol.kind, none⟩ :: right.inOrder

def Symbol.IsOperation (symbol : Symbol) : Prop := symbol.isLeaf = false ∧ symbol ≠ .group

/-- A leaf or a group at the root has nothing in its first place. -/
def Expr.Bare : Expr → Prop
  | .empty => True
  | .node symbol _ _ left _ => symbol.IsOperation ∨ left = .empty

section Tokens

variable {t : Token} {e : Expr}

theorem Token.content_of_not_isOperand (h : t.kind.isOperand = false) :
    t.content = ⟨t.kind, none⟩ := by
  simp [content, h]

theorem Symbol.kind_not_isOperand (s : Symbol) : s.kind.isOperand = false := by
  cases s <;> rfl

theorem Kind.eq_of_sign? {k : Kind} {sign : Sign} (h : k.sign? = some sign) : k = sign.kind := by
  cases k <;> simp only [sign?, Option.some.injEq, reduceCtorEq] at h <;> subst h <;> rfl

theorem Sign.isOperation_symbol (sign : Sign) : sign.symbol.IsOperation := by
  cases sign <;> exact ⟨rfl, nofun⟩

theorem Sign.kind_symbol (sign : Sign) : sign.symbol.kind = sign.kind := by
  cases sign <;> rfl

/-- What a level makes of an operator is written as that operator. -/
theorem Level.isOperation_of_symbol? {level : Level} {k : Kind} {s : Symbol}
    (h : level.symbol? k = some s) : s.IsOperation ∧ s.kind = k := by
  cases level <;> cases k <;> simp only [symbol?, Option.some.injEq, reduceCtorEq] at h <;>
    subst h <;> exact ⟨⟨rfl, nofun⟩, rfl⟩

theorem Expr.inOrder_node {symbol : Symbol} (h : symbol.IsOperation) (name : Option String)
    (note : Annotation) (left right : Expr) :
    (node symbol name note left right).inOrder =
      left.inOrder ++ ⟨symbol.kind, none⟩ :: right.inOrder := by
  cases symbol with
  | reference | literal => cases h.1
  | group => exact absurd rfl h.2
  | _ => rfl

theorem Expr.inOrder_of_leaf? (h : t.leaf? = some e) : e.Bare ∧ [t.content] = e.inOrder := by
  unfold Token.leaf? at h
  split at h
  case h_6 => cases h
  all_goals
    next hkind hvalue =>
    obtain rfl := Option.some.inj h
    refine ⟨.inr rfl, ?_⟩
    simp [Token.content, hkind, hvalue, Kind.isOperand, Kind.isLiteral, Expr.inOrder,
      Expr.reference, Expr.literal, Annotation.ofValue, Value.literalKind]

/-- A sign is read in front of its operand, also where it belongs to the first part of it. -/
theorem Expr.inOrder_withSign (sign : Sign) (h : e.Bare) :
    (e.withSign sign).Bare ∧
      (e.withSign sign).inOrder = ⟨sign.kind, none⟩ :: e.inOrder := by
  have hsign := sign.isOperation_symbol
  have hwrap : (operation sign.symbol .empty e).inOrder = ⟨sign.kind, none⟩ :: e.inOrder := by
    rw [operation, inOrder_node hsign, sign.kind_symbol]
    rfl
  cases e with
  | empty => exact ⟨.inl hsign, hwrap⟩
  | node symbol name note left right =>
    rw [withSign]
    split
    · next hgraft =>
      have hsymbol : symbol.IsOperation := by
        rcases h with hsymbol | rfl
        · exact hsymbol
        · cases hgraft.1
      refine ⟨.inl hsymbol, ?_⟩
      rw [inOrder_node hsymbol, inOrder_node hsymbol, operation, inOrder_node hsign,
        sign.kind_symbol]
      rfl
    · exact ⟨.inl hsign, hwrap⟩

end Tokens

/-- If the plan has a tree, the tree says what the tokens say in front of those that are left. -/
def Planned.Retells {ts : List Token} (p : Planned ts) : Prop :=
  ∀ e, p.outcome = .ok e →
    e.Bare ∧ ∃ read, ts = read ++ p.rest ∧ read.map Token.content = e.inOrder

section Planning

variable {n : Nat} {level : Level} {ts : List Token}

theorem retells_planLevel (first : (planFirst n level ts).Retells)
    (second : ∀ t more, (planFirst n level ts).rest = t :: more →
      (planLevel n level more).Retells) : (planLevel n level ts).Retells := by
  rcases planLevel_cases n level ts with heq | ⟨l, t, more, symbol, hfirst, hsymbol, hplan, hrest⟩
  · rw [heq]
    exact first
  intro e he
  rw [hplan] at he
  cases hsecond : (planLevel n level more).outcome with
  | error => simp [hsecond, Except.map] at he
  | ok r =>
    obtain rfl : Expr.operation symbol l r = e := by simpa [hsecond, Except.map] using he
    obtain ⟨hoperation, hkind⟩ := Level.isOperation_of_symbol? hsymbol
    obtain ⟨_, ls, hls, hl⟩ := first l hfirst.1
    obtain ⟨_, rs, hrs, hr⟩ := second t more hfirst.2 r hsecond
    have hcontent : t.content = ⟨symbol.kind, none⟩ := by
      rw [hkind]
      exact Token.content_of_not_isOperand (hkind ▸ symbol.kind_not_isOperand)
    refine ⟨.inl hoperation, ls ++ t :: rs, ?_, ?_⟩
    · rw [hrest, List.append_assoc, List.cons_append, ← hrs, ← hfirst.2, ← hls]
    · rw [Expr.operation, Expr.inOrder_node hoperation, ← hl, ← hr, ← hcontent]
      simp

/-- A group that is closed has been planned up to its closing parenthesis. -/
theorem Planned.exists_of_close {p : Planned ts} {r : Expr} (h : (p.close n).outcome = .ok r) :
    ∃ e t, p.outcome = .ok e ∧ p.rest = t :: (p.close n).rest ∧ t.kind = .closeParen ∧
      r = .operation .group .empty e := by
  obtain ⟨outcome, rest, suffix⟩ := p
  cases outcome with
  | error => cases h
  | ok e =>
    cases rest with
    | nil => cases h
    | cons t more =>
      simp only [close] at h
      split at h
      · next hclose => exact ⟨e, t, rfl, rfl, hclose, (Except.ok.inj h).symm⟩
      · cases h

theorem Planned.Retells.group {t : Token} {p : Planned ts} (h : p.Retells)
    (hopen : t.kind = .openParen) : ((p.close n).widen (List.suffix_cons t ts)).Retells := by
  intro r hr
  have hclosed : (p.close n).outcome = .ok r := hr
  obtain ⟨e, close, hplan, hrest, hclose, rfl⟩ := Planned.exists_of_close hclosed
  obtain ⟨_, read, hread, hcontent⟩ := h e hplan
  refine ⟨.inr rfl, t :: (read ++ [close]), ?_, ?_⟩
  · rw [hrest] at hread
    simpa [widen] using hread
  · have hinOrder : (Expr.operation .group .empty e).inOrder =
        ⟨.openParen, none⟩ :: (e.inOrder ++ [⟨.closeParen, none⟩]) := rfl
    rw [hinOrder, ← hcontent]
    simp [Token.content, hopen, hclose, Kind.isOperand, Kind.isLiteral]

theorem Planned.Retells.signed {t : Token} {sign : Sign} {p : Planned ts} (h : p.Retells)
    (hsign : t.kind.sign? = some sign) :
    ((p.map (Expr.withSign sign)).widen (List.suffix_cons t ts)).Retells := by
  intro r hr
  cases hplan : p.outcome with
  | error => simp [widen, map, hplan, Except.map] at hr
  | ok e =>
    obtain rfl : e.withSign sign = r := by simpa [widen, map, hplan, Except.map] using hr
    obtain ⟨hbare, read, hread, hcontent⟩ := h e hplan
    obtain ⟨hbare', hinOrder⟩ := Expr.inOrder_withSign sign hbare
    have hkind := Kind.eq_of_sign? hsign
    have hplain : t.kind.isOperand = false := by
      rw [hkind]
      cases sign <;> rfl
    refine ⟨hbare', t :: read, congrArg (t :: ·) hread, ?_⟩
    rw [hinOrder, ← hcontent, ← hkind, ← Token.content_of_not_isOperand hplain]
    rfl

theorem retells_planOperand
    (inner : ∀ us level, us.length < ts.length → (planLevel n level us).Retells) :
    (planOperand n ts).Retells := by
  cases ts with
  | nil =>
    rw [planOperand]
    rintro e ⟨⟩
    exact ⟨trivial, [], rfl, rfl⟩
  | cons t more =>
    have hless : more.length < (t :: more).length := Nat.lt_succ_self _
    rw [planOperand]
    split
    · next hopen => exact (inner more _ hless).group hopen
    · split
      · next e hleaf =>
        rintro r ⟨⟩
        obtain ⟨hbare, hcontent⟩ := Expr.inOrder_of_leaf? hleaf
        exact ⟨hbare, [t], rfl, hcontent⟩
      · next sign hsign => exact (inner more _ hless).signed hsign
      · split
        · rintro r ⟨⟩
          exact ⟨trivial, [], rfl, rfl⟩
        · rintro r ⟨⟩

theorem planLevel_retells (n : Nat) (level : Level) (ts : List Token) :
    (planLevel n level ts).Retells :=
  planLevel_induction (fun _ _ => retells_planLevel) (fun _ => retells_planOperand) level ts

end Planning

def Cursor.between (c behind : Cursor) : List Token := c.rest.take (behind.index - c.index)

structure Reproduces (c behind : Cursor) (e : Expr) : Prop where
  forward : c.index ≤ behind.index
  inside : behind.index ≤ c.tokens.length
  tokens : behind.tokens = c.tokens
  inOrder : (c.between behind).map Token.content = e.inOrder

namespace Cursor

variable {c : Cursor} {e : Expr}

theorem reproduces_build (h : c.build.1 = .ok e) : Reproduces c c.build.2 e := by
  obtain ⟨_, read, hread, hcontent⟩ := planLevel_retells c.sourceLength .lowest c.rest e h
  have hindex : c.build.2.index = c.index + read.length := by
    have hlength := congrArg List.length hread
    rw [length_rest, List.length_append] at hlength
    have hinside := c.index_le
    simp only [build, leaving]
    omega
  refine ⟨by omega, c.build.2.index_le, rfl, ?_⟩
  have hbetween : c.between c.build.2 = read := by
    rw [between, hindex, Nat.add_sub_cancel_left, hread, List.take_left]
  rw [hbetween, hcontent]

/-- A whole plan that succeeds is one that only the end of the tokens follows. -/
theorem build_of_buildAll (h : c.buildAll.1 = .ok e) :
    c.build.1 = .ok e ∧ ∀ t ∈ c.build.2.current?, t.kind = .eof := by
  unfold buildAll at h
  split at h
  · cases h
  · next e' behind hbuild =>
    rw [hbuild]
    split at h
    · next hnone =>
      obtain rfl := Except.ok.inj h
      exact ⟨rfl, by simp [hnone]⟩
    · next t ht =>
      simp only at h
      split at h
      · next heof =>
        obtain rfl := Except.ok.inj h
        exact ⟨rfl, by simp [ht, heof]⟩
      · cases h

end Cursor

/-- No token is lost, doubled or moved by planning, whatever the tokens are and wherever it begins;
where a whole plan succeeds, its tokens go up to the end. -/
theorem build_reproduces (c : Cursor) :
    (∀ e, c.build.1 = .ok e → Reproduces c c.build.2 e) ∧
      ∀ e, c.buildAll.1 = .ok e →
        Reproduces c c.build.2 e ∧ ∀ t ∈ c.build.2.current?, t.kind = .eof := by
  constructor
  · intro e h
    exact Cursor.reproduces_build h
  · intro e h
    obtain ⟨hbuild, hend⟩ := Cursor.build_of_buildAll h
    exact ⟨Cursor.reproduces_build hbuild, hend⟩

/-- A cursor behind the first of the tokens `) a ! - ! b`, which the grammar refuses. -/
def scatteredInversion : Cursor :=
  ⟨10, [⟨.closeParen, none, 0, ⟨0, 1⟩⟩, ⟨.identifier, some (.text "a"), 2, ⟨2, 1⟩⟩,
    ⟨.not, none, 4, ⟨4, 1⟩⟩, ⟨.minus, none, 6, ⟨6, 1⟩⟩, ⟨.not, some (.bool true), 8, ⟨8, 1⟩⟩,
    ⟨.identifier, some (.text "b"), 9, ⟨9, 1⟩⟩], 1, by decide⟩

theorem scatteredInversion_reproduced :
    scatteredInversion.buildAll.1 =
        .ok (.operation .invert (.reference "a")
          (.operation .invert (.operation .negative .empty .empty) (.reference "b"))) ∧
      Reproduces scatteredInversion scatteredInversion.build.2
        (.operation .invert (.reference "a")
          (.operation .invert (.operation .negative .empty .empty) (.reference "b"))) := by
  have built : scatteredInversion.buildAll.1 =
      .ok (.operation .invert (.reference "a")
        (.operation .invert (.operation .negative .empty .empty) (.reference "b"))) := by
    decide +kernel
  exact ⟨built, ((build_reproduces scatteredInversion).2 _ built).1⟩

end Formula
