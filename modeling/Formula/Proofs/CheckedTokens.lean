import Formula.Proofs.Adjacency
import Formula.Proofs.Planning

/-! What the grammar check says of a token sequence, and what a checked sequence is planned as. -/
namespace Formula

def Misplaced (before : List Token) (t : Token) : Prop :=
  (Kind.illegal.after before).admits t.kind = false

def expressionTokens (ts : List Token) : List Token := ts.filter fun t => t.kind ≠ .eof

namespace Walk

variable {last found : Option Token} {t : Token} {ts rest : List Token}

theorem leads_of_through (h : Walk.run last ts = .through found) :
    (GrammarError.lastKind last).Leads ts ∧
      GrammarError.lastKind found = (GrammarError.lastKind last).after ts := by
  induction ts generalizing last with
  | nil =>
    obtain rfl : last = found := by simpa [Walk.run] using h
    exact ⟨trivial, rfl⟩
  | cons t ts ih =>
    rw [Walk.run] at h
    split at h
    · next hadmits => exact ⟨⟨hadmits, (ih h).1⟩, (ih h).2⟩
    · simp at h

theorem exists_of_stuck (h : Walk.run last ts = .stuck found t rest) :
    ∃ before, ts = before ++ t :: rest ∧ (GrammarError.lastKind last).Leads before ∧
      found = before.getLast?.or last ∧
      ((GrammarError.lastKind last).after before).admits t.kind = false := by
  induction ts generalizing last with
  | nil => simp [Walk.run] at h
  | cons u us ih =>
    rw [Walk.run] at h
    split at h
    · next hadmits =>
      obtain ⟨before, rfl, hleads, hfound, hstuck⟩ := ih h
      refine ⟨u :: before, rfl, ⟨hadmits, hleads⟩, ?_, hstuck⟩
      rw [hfound, List.getLast?_cons]
      cases before.getLast? <;> rfl
    · next hadmits =>
      obtain ⟨rfl, rfl, rfl⟩ : last = found ∧ u = t ∧ us = rest := by simpa using h
      exact ⟨[], rfl, trivial, rfl, by simpa using hadmits⟩

end Walk

/-- Where tokens lead from kind to kind, none is misplaced. -/
theorem Kind.Leads.nowhere_misplaced {ts : List Token} (h : Kind.illegal.Leads ts) :
    Nowhere Misplaced ts := by
  intro us u hus
  obtain ⟨rest, rfl⟩ := hus
  simp only [leads_append, leads_cons] at h
  simp [Misplaced, h.1.2.1]

/-- Behind tokens that lead from kind to kind, a misplaced token is the first one. -/
theorem Kind.Leads.firstAt_misplaced {before : List Token} {t : Token}
    (h : Kind.illegal.Leads before) (hstuck : Misplaced before t) (rest : List Token) :
    FirstAt Misplaced (before ++ t :: rest) before t := by
  refine ⟨by simp, hstuck, fun us u hus hu => ?_⟩
  by_contra hlt
  have hbefore : us ++ [u] <+: before := by
    apply List.prefix_of_prefix_length_le hus (List.prefix_append before (t :: rest))
    simp
    omega
  exact h.nowhere_misplaced us u hbefore hu

namespace Cursor

variable {n : Nat} {ts : List Token}

/-- The check passes, finds the tokens unfinished, or stops behind a token that is not admitted. -/
theorem checkSyntax_cases (c : Cursor) :
    (Kind.illegal.Leads c.rest ∧ (Kind.illegal.after c.rest).mayEnd = true ∧
        c.checkSyntax = (.ok (), c.reset)) ∨
      (Kind.illegal.Leads c.rest ∧ (Kind.illegal.after c.rest).mayEnd = false ∧
        c.checkSyntax = (.error (.unfinished c.sourceLength), c.leaving [])) ∨
      ∃ before t rest, c.rest = before ++ t :: rest ∧ Kind.illegal.Leads before ∧
        Misplaced before t ∧
        c.checkSyntax = (.error (.transition before.getLast? t), c.leaving rest) := by
  unfold checkSyntax
  cases hwalk : Walk.run none c.rest with
  | through found =>
    obtain ⟨hleads, hlast⟩ := Walk.leads_of_through hwalk
    have hlast : GrammarError.lastKind found = Kind.illegal.after c.rest := hlast
    simp only [hlast]
    cases hend : (Kind.illegal.after c.rest).mayEnd with
    | true => exact .inl ⟨hleads, rfl, rfl⟩
    | false => exact .inr (.inl ⟨hleads, rfl, rfl⟩)
  | stuck found t rest =>
    obtain ⟨before, hrest, hleads, hfound, hstuck⟩ := Walk.exists_of_stuck hwalk
    rw [Option.or_none] at hfound
    rw [hfound]
    exact .inr (.inr ⟨before, t, rest, hrest, hleads, hstuck, rfl⟩)

/-- A check that passes leaves the cursor in front of tokens that lead to an end. -/
theorem leads_of_checkSyntax {checked : Cursor}
    (h : (ofTokens n ts).checkSyntax = (.ok (), checked)) :
    checked = ofTokens n ts ∧ Kind.illegal.Leads ts ∧ (Kind.illegal.after ts).mayEnd = true := by
  rcases (ofTokens n ts).checkSyntax_cases with
    ⟨hleads, hends, hcheck⟩ | ⟨_, _, hcheck⟩ | ⟨_, _, _, _, _, _, hcheck⟩
  · exact ⟨(Prod.mk.inj (h.symm.trans hcheck)).2, hleads, hends⟩
  · cases hcheck.symm.trans h
  · cases hcheck.symm.trans h

/-- What a whole plan comes to whose expression leaves the given tokens. -/
def endsWith (e : Expr) : List Token → Except PlanError Expr
  | [] => .ok e
  | t :: _ => if t.kind = .eof then .ok e else .error (.unplannable t)

theorem buildAll_of_yields {c : Cursor} {e : Expr} {rest : List Token}
    (h : (planLevel c.sourceLength .lowest c.rest).Yields e rest) :
    c.buildAll.1 = endsWith e rest := by
  have hsuffix : rest <:+ c.tokens :=
    (h.2 ▸ (planLevel c.sourceLength .lowest c.rest).suffix).trans c.rest_suffix
  have hcurrent : (c.leaving rest).current? = rest.head? := by
    rw [current?_eq_head?, rest_leaving hsuffix]
  rw [buildAll, build, h.1, h.2]
  simp only [hcurrent]
  cases rest <;> rfl

end Cursor

/-- Behind an end stands nothing. -/
theorem Kind.Leads.eq_append_end {k : Kind} {ts : List Token} (h : k.Leads ts) :
    ts = expressionTokens ts ∨ ∃ t, t.kind = .eof ∧ ts = expressionTokens ts ++ [t] := by
  induction ts generalizing k with
  | nil => exact .inl rfl
  | cons t ts ih =>
    by_cases hend : t.kind = .eof
    · cases ts with
      | nil => exact .inr ⟨t, hend, by simp [expressionTokens, hend]⟩
      | cons u us =>
        have hu := h.2.1
        rw [hend] at hu
        exact absurd hu (by simp [admits, followers])
    · have htail : expressionTokens (t :: ts) = t :: expressionTokens ts := by
        simp [expressionTokens, hend]
      rw [htail]
      rcases ih h.2 with hts | ⟨u, hu, hts⟩
      · exact .inl (congrArg (t :: ·) hts)
      · exact .inr ⟨u, hu, congrArg (t :: ·) hts⟩

theorem nested_of_append_end {ts : List Token} {t : Token} (h : Nested (ts ++ [t]))
    (ht : t.kind = .eof) : Nested ts where
  balanced := by simpa [ht] using h.balanced
  closed_le us hus := h.closed_le us (hus.trans (List.prefix_append ts [t]))

/-- Tokens that lead to an end, with nested parentheses, are a phrase and at most an end. -/
theorem Phrase.of_leads {ts : List Token} (valued : ∀ t ∈ ts, t.Valued)
    (leads : Kind.illegal.Leads ts) (ends : (Kind.illegal.after ts).mayEnd = true)
    (nested : Nested ts) : Phrase .illegal (expressionTokens ts) := by
  have hvalued : ∀ t ∈ expressionTokens ts, t.Valued :=
    fun t ht => valued t (List.mem_of_mem_filter ht)
  have hunended : ∀ t ∈ expressionTokens ts, t.kind ≠ .eof :=
    fun t ht => by simpa using List.of_mem_filter ht
  rcases leads.eq_append_end with hts | ⟨t, ht, hts⟩
  · rw [hts] at leads ends nested
    exact ⟨leads, ends, nested, hvalued, hunended⟩
  · rw [hts] at leads nested
    have hend := (Kind.leads_append.mp leads).2
    rw [Kind.leads_cons, ht, Kind.admits_eof_iff] at hend
    exact ⟨(Kind.leads_append.mp leads).1, hend.1.1, nested_of_append_end nested ht, hvalued,
      hunended⟩

/-- A phrase has a tree, and a whole plan reads it up to what does not go on with an expression. -/
theorem Phrase.exists_tree {ts rest : List Token} (h : Phrase .illegal ts)
    (hends : Tier.or.Ends rest) (n : Nat) :
    ∃ tree, Parses .or ts tree ∧
      (Cursor.ofTokens n (ts ++ rest)).buildAll.1 = Cursor.endsWith tree rest := by
  obtain ⟨tree, hparse⟩ := h.exists_parse rfl
  exact ⟨tree, hparse, Cursor.buildAll_of_yields (hparse.planned n hends)⟩

/-- Nested tokens that pass the grammar check are planned as their one tree, in which every node
has exactly the operands its symbol takes. -/
theorem buildAll_eq_the_tree (sourceLength : Nat) (ts : List Token) (checked : Cursor)
    (valued : ∀ t ∈ ts, t.Valued)
    (check : (Cursor.ofTokens sourceLength ts).checkSyntax = (.ok (), checked))
    (nested : Nested ts) :
    ∃ tree, checked.buildAll.1 = .ok tree ∧ tree.isNode = true ∧ tree.Shaped ∧
      ∀ e, Parses .or (expressionTokens ts) e ↔ e = tree := by
  obtain ⟨rfl, leads, ends⟩ := Cursor.leads_of_checkSyntax check
  have hphrase := Phrase.of_leads valued leads ends nested
  have hplan : ∃ tree, Parses .or (expressionTokens ts) tree ∧
      (Cursor.ofTokens sourceLength ts).buildAll.1 = .ok tree := by
    rcases leads.eq_append_end with hts | ⟨t, ht, hts⟩
    · have hends : Tier.or.Ends [] := by simp [Tier.Ends]
      obtain ⟨tree, hparse, hbuild⟩ := hphrase.exists_tree hends sourceLength
      rw [List.append_nil, ← hts] at hbuild
      exact ⟨tree, hparse, hbuild⟩
    · have hends : Tier.or.Ends [t] := Tier.ends_of_not_joiner (.inl ht)
      obtain ⟨tree, hparse, hbuild⟩ := hphrase.exists_tree hends sourceLength
      rw [← hts, Cursor.endsWith, if_pos ht] at hbuild
      exact ⟨tree, hparse, hbuild⟩
  obtain ⟨tree, hparse, hbuild⟩ := hplan
  exact ⟨tree, hbuild, hparse.isNode, hparse.shaped,
    fun e => ⟨fun he => he.unique hparse, fun he => he ▸ hparse⟩⟩

/-- The tokens of `-a * (b)`. -/
def signedProduct : List Token :=
  [⟨.minus, none, 0, ⟨0, 1⟩⟩, ⟨.identifier, some (.text "a"), 1, ⟨1, 1⟩⟩,
    ⟨.times, none, 3, ⟨3, 1⟩⟩, ⟨.openParen, none, 5, ⟨5, 1⟩⟩,
    ⟨.identifier, some (.text "b"), 6, ⟨6, 1⟩⟩, ⟨.closeParen, none, 7, ⟨7, 1⟩⟩,
    ⟨.eof, none, 8, ⟨8, 0⟩⟩]

theorem signedProduct_eq_the_tree :
    (∀ t ∈ signedProduct, t.Valued) ∧
      (Cursor.ofTokens 8 signedProduct).checkSyntax = (.ok (), Cursor.ofTokens 8 signedProduct) ∧
      Nested signedProduct ∧
      ∃ tree, (Cursor.ofTokens 8 signedProduct).buildAll.1 = .ok tree ∧ tree.isNode = true ∧
        tree.Shaped ∧ ∀ e, Parses .or (expressionTokens signedProduct) e ↔ e = tree := by
  have valued : ∀ t ∈ signedProduct, t.Valued := by
    simp [signedProduct, Token.Valued, Kind.isLiteral]
  have check : (Cursor.ofTokens 8 signedProduct).checkSyntax =
      (.ok (), Cursor.ofTokens 8 signedProduct) := rfl
  have nested : Nested signedProduct := by decide
  exact ⟨valued, check, nested, buildAll_eq_the_tree 8 signedProduct _ valued check nested⟩

end Formula
