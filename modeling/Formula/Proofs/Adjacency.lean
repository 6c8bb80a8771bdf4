import Formula.Proofs.Nesting
import Formula.Proofs.ParseTree

/-! Sequences in which every token may stand behind the one before it. If their parentheses are
nested and they may end where they do, they are expressions of the grammar. -/
namespace Formula
namespace Kind

/-- The kind of the last token, or the given kind if there is none. -/
def after (k : Kind) (ts : List Token) : Kind := ts.foldl (fun _ t => t.kind) k

/-- Each token may stand behind the one before it, and the first one behind a kind. -/
def Leads (k : Kind) : List Token → Prop
  | [] => True
  | t :: ts => k.admits t.kind = true ∧ t.kind.Leads ts

variable {k : Kind} {t : Token} {ts us : List Token}

@[simp] theorem after_nil (k : Kind) : k.after [] = k := rfl

@[simp] theorem after_cons (k : Kind) (t : Token) (ts : List Token) :
    k.after (t :: ts) = t.kind.after ts := rfl

@[simp] theorem after_append (k : Kind) (ts us : List Token) :
    k.after (ts ++ us) = (k.after ts).after us := List.foldl_append

@[simp] theorem leads_nil (k : Kind) : k.Leads [] := trivial

@[simp] theorem leads_cons : k.Leads (t :: ts) ↔ k.admits t.kind = true ∧ t.kind.Leads ts := Iff.rfl

@[simp] theorem leads_append : k.Leads (ts ++ us) ↔ k.Leads ts ∧ (k.after ts).Leads us := by
  induction ts generalizing k with
  | nil => simp
  | cons t ts ih => simp [ih, and_assoc]

theorem starters_of_admits {j : Kind} (hk : k.mayEnd = false) (h : k.admits j = true) :
    j ∈ starters := by
  cases k <;> simp only [mayEnd, reduceCtorEq] at hk <;> cases j <;>
    first | decide | exact absurd h (by decide)

/-- Behind an operand stands a closing parenthesis, the end, or an operator. -/
theorem exists_joiner? {j : Kind} (hk : k.mayEnd = true) (h : k.admits j = true)
    (hclose : j ≠ .closeParen) (heof : j ≠ .eof) :
    ∃ (tier : Tier) (s : Symbol), tier.joiner? j = some s := by
  have hmem : j ∈ afterOperand := by
    cases k <;> simp only [mayEnd, reduceCtorEq] at hk <;> cases j <;>
      first | decide | exact absurd h (by decide)
  simp only [afterOperand, List.mem_cons, List.not_mem_nil, or_false] at hmem
  rcases hmem with rfl | rfl | rfl | rfl | rfl | rfl | rfl | rfl | rfl | rfl | rfl | rfl | rfl |
    rfl | rfl
  · exact absurd rfl hclose
  · exact ⟨.sum, _, rfl⟩
  · exact ⟨.sum, _, rfl⟩
  · exact ⟨.product, _, rfl⟩
  · exact ⟨.product, _, rfl⟩
  · exact ⟨.product, _, rfl⟩
  · exact ⟨.comparison, _, rfl⟩
  · exact ⟨.comparison, _, rfl⟩
  · exact ⟨.comparison, _, rfl⟩
  · exact ⟨.comparison, _, rfl⟩
  · exact ⟨.comparison, _, rfl⟩
  · exact ⟨.comparison, _, rfl⟩
  · exact ⟨.and, _, rfl⟩
  · exact ⟨.or, _, rfl⟩
  · exact absurd rfl heof

theorem mayEnd_of_admits_closeParen (h : k.admits .closeParen = true) : k.mayEnd = true := by
  cases k <;> first | rfl | exact absurd h (by decide)

theorem not_mayEnd_of_joiner? {tier : Tier} {s : Symbol} (h : tier.joiner? k = some s) :
    k.mayEnd = false := by
  cases k <;> first | rfl | (cases tier <;> simp [Tier.joiner?] at h)

theorem not_mayEnd_of_sign? (h : k.sign? ≠ none) : k.mayEnd = false := by
  cases k <;> first | rfl | exact absurd rfl h

/-- An inversion stands behind the operators of the loosest two tiers only. -/
theorem not_admits_not_of_joiner? {tier : Tier} {s : Symbol} (h : tier.joiner? k = some s)
    (hrank : tier.rank < Tier.not.rank) : k.admits .not = false := by
  cases tier with
  | or | and | not => exact absurd hrank (by decide)
  | comparison | sum | product | unary | primary =>
    cases k <;> first | rfl | simp [Tier.joiner?] at h

end Kind

def Kind.isLiteral : Kind → Bool
  | .bool | .integer | .float | .string => true
  | _ => false

/-- A token that is an identifier or a literal carries a value of its kind. -/
def Token.Valued (t : Token) : Prop :=
  (t.kind = .identifier → ∃ name, t.value = some (.text name)) ∧
    (t.kind.isLiteral = true → ∃ v, t.value = some v ∧ t.kind = v.literalKind)

structure Phrase (k : Kind) (ts : List Token) : Prop where
  leads : k.Leads ts
  ends : (k.after ts).mayEnd = true
  nested : Nested ts
  valued : ∀ t ∈ ts, t.Valued
  unended : ∀ t ∈ ts, t.kind ≠ .eof

namespace Phrase

variable {k : Kind} {t : Token} {ts more : List Token}

theorem admits (h : Phrase k (t :: ts)) : k.admits t.kind = true := h.leads.1

theorem ne_nil (h : Phrase k ts) (hk : k.mayEnd = false) : ts ≠ [] := by
  rintro rfl
  have := h.ends
  simp [hk] at this

theorem tail (h : Phrase k (t :: ts)) (hopen : t.kind ≠ .openParen) : Phrase t.kind ts where
  leads := h.leads.2
  ends := h.ends
  nested := h.nested.tail hopen
  valued u hu := h.valued u (List.mem_cons_of_mem t hu)
  unended u hu := h.unended u (List.mem_cons_of_mem t hu)

/-- The parenthesis in front is closed; what stands inside is a phrase, and so is what stands
behind. -/
theorem exists_group (h : Phrase k (t :: ts)) (hopen : t.kind = .openParen) :
    ∃ inner close rest, ts = inner ++ close :: rest ∧ close.kind = .closeParen ∧
      Phrase .openParen inner ∧ Phrase .closeParen rest := by
  obtain ⟨inner, close, rest, rfl, hclose, hinner, hrest⟩ := h.nested.exists_group hopen
  have hleads := h.leads.2
  rw [hopen, Kind.leads_append, Kind.leads_cons, hclose] at hleads
  have hends := h.ends
  rw [Kind.after_cons, Kind.after_append, Kind.after_cons, hclose] at hends
  have hvalued := h.valued
  have hunended := h.unended
  simp only [List.mem_cons, List.mem_append] at hvalued hunended
  refine ⟨inner, close, rest, rfl, hclose, ⟨hleads.1, ?_, hinner, ?_, ?_⟩,
    ⟨hleads.2.2, hends, hrest, ?_, ?_⟩⟩
  · exact Kind.mayEnd_of_admits_closeParen hleads.2.1
  · exact fun u hu => hvalued u (.inr (.inl hu))
  · exact fun u hu => hunended u (.inr (.inl hu))
  · exact fun u hu => hvalued u (.inr (.inr (.inr hu)))
  · exact fun u hu => hunended u (.inr (.inr (.inr hu)))

end Phrase

/-- Tokens behind an expression of a tier: none, or a looser operator with its second operand. -/
def Tier.Continues (tier : Tier) (rest : List Token) : Prop :=
  ∀ t more, rest = t :: more → Phrase t.kind more ∧
    ∃ (other : Tier) (s : Symbol), tier.rank < other.rank ∧ other.joiner? t.kind = some s

/-- An expression of a tier may begin with a kind of token, as far as its prefix operators go. -/
def Tier.Begins (tier : Tier) (k : Kind) : Prop :=
  (k = .not → Tier.not.rank ≤ tier.rank) ∧ (k.sign? ≠ none → Tier.unary.rank ≤ tier.rank)

/-- The tokens begin with an expression of a tier, and what stands behind continues it. -/
def Tier.Splits (tier : Tier) (ts : List Token) : Prop :=
  ∃ seg rest e, ts = seg ++ rest ∧ Parses tier seg e ∧ tier.Continues rest

/-- Nothing continues an expression of the loosest tier. -/
theorem Tier.eq_nil_of_or_continues {rest : List Token} (h : Tier.or.Continues rest) :
    rest = [] := by
  cases rest with
  | nil => rfl
  | cons u us =>
    obtain ⟨_, other, _, hrank, _⟩ := h u us rfl
    exact absurd other.rank_le (not_le_of_gt hrank)

namespace Phrase

variable {k : Kind} {tier next : Tier} {t : Token} {ts more : List Token} {e : Expr}

/-- Behind an operand, tokens go on with an operator of any tier. -/
theorem continues (h : Phrase k ts) (hk : k.mayEnd = true) : Tier.primary.Continues ts := by
  rintro t more rfl
  have hclose := h.nested.head_ne_closeParen
  obtain ⟨other, s, hjoin⟩ := Kind.exists_joiner? hk h.admits hclose (h.unended t (by simp))
  refine ⟨h.tail ?_, other, s, ?_, hjoin⟩
  · intro hopen
    rw [hopen] at hjoin
    cases other <;> simp [Tier.joiner?] at hjoin
  · rw [Tier.rank]
    by_contra hrank
    cases other <;> simp [Tier.rank, Tier.joiner?] at hrank hjoin

/-- A leaf or a group stands in front of a phrase that begins with no sign or inversion. -/
theorem splits_primary (h : Phrase k (t :: more)) (hk : k.mayEnd = false)
    (hbegin : Tier.primary.Begins t.kind)
    (ih : ∀ inner, inner.length < (t :: more).length → Phrase .openParen inner →
      Tier.or.Splits inner) : Tier.primary.Splits (t :: more) := by
  have hstart := Kind.starters_of_admits hk h.admits
  have hvalued := h.valued t (by simp)
  have leaf (hleaf : t.kind.mayEnd = true) {e : Expr} (hparse : Parses .primary [t] e) :
      Tier.primary.Splits (t :: more) := by
    refine ⟨[t], more, e, rfl, hparse, ?_⟩
    refine (h.tail ?_).continues hleaf
    intro hopen
    simp [hopen, Kind.mayEnd] at hleaf
  have literal (hliteral : t.kind.isLiteral = true) : Tier.primary.Splits (t :: more) := by
    obtain ⟨v, hv, hkind⟩ := hvalued.2 hliteral
    refine leaf ?_ (.literal hkind hv)
    rw [hkind]
    cases v <;> rfl
  simp only [Kind.starters, List.mem_cons, List.not_mem_nil, or_false] at hstart
  rcases hstart with hkind | hkind | hkind | hkind | hkind | hkind | hkind | hkind | hkind
  · obtain ⟨name, hname⟩ := hvalued.1 hkind
    exact leaf (by rw [hkind]; rfl) (.identifier hkind hname)
  · exact literal (by rw [hkind]; rfl)
  · exact literal (by rw [hkind]; rfl)
  · exact literal (by rw [hkind]; rfl)
  · exact literal (by rw [hkind]; rfl)
  · obtain ⟨inner, close, rest, rfl, hclose, hinner, hrest⟩ := h.exists_group hkind
    have hless : inner.length < (t :: (inner ++ close :: rest)).length := by
      simp only [List.length_cons, List.length_append]
      omega
    obtain ⟨seg, behind, e, rfl, hparse, hcontinue⟩ := ih inner hless hinner
    obtain rfl := Tier.eq_nil_of_or_continues hcontinue
    refine ⟨t :: (seg ++ [close]), rest, .operation .group .empty e, by simp, ?_, ?_⟩
    · exact .group hkind hparse hclose
    · exact hrest.continues rfl
  · exact absurd (hbegin.2 (by rw [hkind]; simp [Kind.sign?])) (by decide)
  · exact absurd (hbegin.2 (by rw [hkind]; simp [Kind.sign?])) (by decide)
  · exact absurd (hbegin.1 hkind) (by decide)

/-- A tier takes an expression of the next tighter one, and with an operator of its own behind it
an expression of the tier itself. -/
theorem splits_of_first (step : tier.tighter? = some next) (first : next.Splits ts)
    (ih : ∀ (t : Token) more s, more.length < ts.length → tier.joiner? t.kind = some s →
      Phrase t.kind more → tier.Splits more) : tier.Splits ts := by
  obtain ⟨seg, rest, e, rfl, hparse, hcontinue⟩ := first
  have hrank := Tier.rank_of_tighter? step
  cases rest with
  | nil => exact ⟨seg, [], e, rfl, .descend step hparse, fun t more h => by simp at h⟩
  | cons t more =>
    obtain ⟨hmore, other, s, hother, hjoin⟩ := hcontinue t more rfl
    by_cases heq : other = tier
    · subst heq
      obtain ⟨seg', rest', e', rfl, hparse', hcontinue'⟩ := ih t more s (by simp; omega) hjoin hmore
      exact ⟨seg ++ t :: seg', rest', _, by simp, .join step hparse hjoin hparse', hcontinue'⟩
    · have hloose : tier.rank < other.rank := by
        have hne := mt Tier.eq_of_rank_eq heq
        omega
      refine ⟨seg, t :: more, e, rfl, .descend step hparse, ?_⟩
      rintro u us h
      obtain ⟨rfl, rfl⟩ := List.cons.inj h
      exact ⟨hmore, other, s, hloose, hjoin⟩

theorem splits_unary (h : Phrase k (t :: more)) (hsign : t.kind.sign? ≠ none)
    (ih : Phrase t.kind more → (∀ u ∈ more.head?, Tier.unary.Begins u.kind) →
      Tier.unary.Splits more) : Tier.unary.Splits (t :: more) := by
  obtain ⟨sign, hs⟩ := Option.ne_none_iff_exists'.mp hsign
  have hkind : t.kind = sign.kind := by
    cases hk : t.kind <;> simp only [hk, Kind.sign?, Option.some.injEq, reduceCtorEq] at hs <;>
      subst hs <;> rfl
  have hmore := h.tail (by rw [hkind]; cases sign <;> decide)
  have hbegin : ∀ u ∈ more.head?, Tier.unary.Begins u.kind := by
    intro u hu
    obtain ⟨us, rfl⟩ := List.head?_eq_some_iff.mp hu
    refine ⟨fun hnot => ?_, fun _ => Nat.le_refl _⟩
    have hadmits := hmore.admits
    rw [hnot, hkind] at hadmits
    cases sign <;> exact absurd hadmits (by decide)
  obtain ⟨seg, rest, e, rfl, hparse, hcontinue⟩ := ih hmore hbegin
  exact ⟨t :: seg, rest, _, rfl, .signed sign hkind hparse, hcontinue⟩

theorem splits_not (h : Phrase k (t :: more)) (hnot : t.kind = .not)
    (ih : Phrase t.kind more → Tier.not.Splits more) : Tier.not.Splits (t :: more) := by
  obtain ⟨seg, rest, e, rfl, hparse, hcontinue⟩ := ih (h.tail (by simp [hnot]))
  exact ⟨t :: seg, rest, _, rfl, .invert hnot hparse, hcontinue⟩

end Phrase

/-- Loose tiers may begin with any kind of token. -/
theorem Tier.begins_of_rank_le {tier : Tier} (h : Tier.not.rank ≤ tier.rank) (k : Kind) :
    tier.Begins k :=
  ⟨fun _ => h, fun _ => Nat.le_trans (by decide) h⟩

/-- Behind an operator of a tier, an expression of the tier may begin. -/
theorem Phrase.begins_of_joiner? {tier : Tier} {k : Kind} {s : Symbol} {ts : List Token}
    (h : Phrase k ts) (hjoin : tier.joiner? k = some s) : ∀ t ∈ ts.head?, tier.Begins t.kind := by
  intro t ht
  obtain ⟨us, rfl⟩ := List.head?_eq_some_iff.mp ht
  refine ⟨fun hnot => ?_, fun _ => ?_⟩
  · by_contra hrank
    have hadmits := h.admits
    rw [hnot, Kind.not_admits_not_of_joiner? hjoin (by omega)] at hadmits
    cases hadmits
  · cases tier <;> first | decide | simp [Tier.joiner?] at hjoin

/-- A phrase begins with an expression of every tier that its first token lets begin. The induction
is on the tokens first and then on the tiers, as a tighter tier begins with the same token. -/
theorem Phrase.splits {tier : Tier} {k : Kind} {ts : List Token} (h : Phrase k ts)
    (hk : k.mayEnd = false) (hbegin : ∀ t ∈ ts.head?, tier.Begins t.kind) : tier.Splits ts := by
  induction hsize : 8 * ts.length + tier.rank using Nat.strong_induction_on
    generalizing tier k ts with
  | _ size ih =>
  obtain ⟨t, more, rfl⟩ := List.exists_cons_of_ne_nil (h.ne_nil hk)
  have hhead : tier.Begins t.kind := hbegin t (by simp)
  have shorter {other : Tier} {j : Kind} {us : List Token} (hlt : us.length < (t :: more).length)
      (hus : Phrase j us) (hj : j.mayEnd = false) (hother : ∀ u ∈ us.head?, other.Begins u.kind) :
      other.Splits us := by
    refine ih (8 * us.length + other.rank) ?_ hus hj hother rfl
    have := other.rank_le
    omega
  have hmore : more.length < (t :: more).length := Nat.lt_succ_self _
  cases hstep : tier.tighter? with
  | none =>
    obtain rfl : tier = .primary := by
      cases tier <;> first | rfl | simp [Tier.tighter?] at hstep
    exact h.splits_primary hk hhead fun inner hlt hinner =>
      shorter hlt hinner rfl fun _ _ => Tier.begins_of_rank_le (by decide) _
  | some next =>
    have hrank := Tier.rank_of_tighter? hstep
    by_cases hsign : tier = .unary ∧ t.kind.sign? ≠ none
    · obtain ⟨rfl, hsign⟩ := hsign
      exact h.splits_unary hsign fun htail hbegin' =>
        shorter hmore htail (Kind.not_mayEnd_of_sign? hsign) hbegin'
    by_cases hnot : tier = .not ∧ t.kind = .not
    · obtain ⟨rfl, hnot⟩ := hnot
      exact h.splits_not hnot fun htail => shorter hmore htail (by rw [hnot]; rfl) fun _ _ =>
        Tier.begins_of_rank_le (Nat.le_refl _) _
    have hnext : next.Begins t.kind := by
      refine ⟨fun hkind => ?_, fun hkind => ?_⟩
      · have hne : tier.rank ≠ Tier.not.rank := fun h => hnot ⟨Tier.eq_of_rank_eq h, hkind⟩
        have := hhead.1 hkind
        omega
      · have hne : tier.rank ≠ Tier.unary.rank := fun h => hsign ⟨Tier.eq_of_rank_eq h, hkind⟩
        have := hhead.2 hkind
        omega
    refine splits_of_first hstep (ih _ (by omega) h hk (fun u hu => ?_) rfl)
      fun u us s hlt hjoin hus => ?_
    · obtain rfl : t = u := by simpa using hu
      exact hnext
    · exact shorter hlt hus (Kind.not_mayEnd_of_joiner? hjoin) (hus.begins_of_joiner? hjoin)

/-- A phrase in which an expression may begin is one, and has one tree only. -/
theorem Phrase.exists_parse {k : Kind} {ts : List Token} (h : Phrase k ts) (hk : k.mayEnd = false) :
    ∃ e, Parses .or ts e := by
  have hsplit : Tier.or.Splits ts :=
    h.splits hk fun _ _ => Tier.begins_of_rank_le (by decide) _
  obtain ⟨seg, rest, e, rfl, hparse, hcontinue⟩ := hsplit
  obtain rfl := Tier.eq_nil_of_or_continues hcontinue
  exact ⟨e, by simpa using hparse⟩

end Formula
