import Formula.Compile
import Formula.Proofs.CheckedTokens
import Formula.Proofs.ScannedTokens

/-! What a source compiles to, said of its tokens alone. Of five rules exactly one applies to a
source; by them planning fails at a closing parenthesis that closes nothing and nowhere else. -/
namespace Formula

inductive Compiles (source : String) : Except CompileError Expr → Prop where
  | scan {e : ScanError} (fault : scan source = .error e) : Compiles source (.error (.scan e))
  | unbalanced {ts : List Token} (scanned : scan source = .ok ts)
      (unequal : countKind .openParen ts ≠ countKind .closeParen ts) :
      Compiles source (.error (.grammar (.unbalanced (countKind .openParen ts)
        (countKind .closeParen ts) (byteLength source.toList))))
  | misplaced {ts before : List Token} {t : Token} (scanned : scan source = .ok ts)
      (balanced : countKind .openParen ts = countKind .closeParen ts)
      (first : FirstAt Misplaced ts before t) :
      Compiles source (.error (.grammar (.transition before.getLast? t)))
  | stray {ts before : List Token} {t : Token} (scanned : scan source = .ok ts)
      (balanced : countKind .openParen ts = countKind .closeParen ts)
      (placed : Nowhere Misplaced ts) (first : FirstAt Stray ts before t) :
      Compiles source (.error (.plan (.unplannable t)))
  | tree {ts : List Token} {e : Expr} (scanned : scan source = .ok ts)
      (balanced : countKind .openParen ts = countKind .closeParen ts)
      (placed : Nowhere Misplaced ts) (unstrayed : Nowhere Stray ts)
      (parses : Parses .or (expressionTokens ts) e) : Compiles source (.ok e)

def CompileError.span? (e : CompileError) : Option Span := e.diagnostic.label.map Label.span

section Stages

variable {n : Nat} {ts : List Token} {c : Cursor}

theorem compileTokens_of_unequal (h : countKind .openParen ts ≠ countKind .closeParen ts) :
    compileTokens n ts = .error (.grammar (.unbalanced (countKind .openParen ts)
      (countKind .closeParen ts) n)) := by
  have hcheck : (Cursor.ofTokens n ts).checkBalance =
      (.error (.unbalanced (countKind .openParen ts) (countKind .closeParen ts) n),
        (Cursor.ofTokens n ts).leaving []) := if_neg h
  rw [compileTokens, hcheck]

theorem compileTokens_of_balanced (h : countKind .openParen ts = countKind .closeParen ts) :
    (∀ e c, (Cursor.ofTokens n ts).checkSyntax = (.error e, c) →
        compileTokens n ts = .error (.grammar e)) ∧
      ∀ c, (Cursor.ofTokens n ts).checkSyntax = (.ok (), c) →
        compileTokens n ts = planTokens c := by
  have hbalance : (Cursor.ofTokens n ts).checkBalance = (.ok (), Cursor.ofTokens n ts) := if_pos h
  constructor
  · intro e c hcheck
    simp only [compileTokens, hbalance, hcheck]
  · intro c hcheck
    simp only [compileTokens, hbalance, hcheck]

theorem planTokens_of_error {e : PlanError} (h : c.buildAll.1 = .error e) :
    planTokens c = .error (.plan e) := by
  rw [planTokens, h]

theorem planTokens_of_node {e : Expr} (h : c.buildAll.1 = .ok e) (hnode : e.isNode = true) :
    planTokens c = .ok e := by
  cases e with
  | empty => cases hnode
  | node => rw [planTokens, h]

end Stages

structure Scanned (ts body : List Token) (last : Token) : Prop where
  split : ts = body ++ [last]
  ends : last.kind = .eof
  inner : ∀ t ∈ body, t.Inner

theorem exists_scanned {source : String} {ts : List Token} (h : scan source = .ok ts) :
    ∃ body last, Scanned ts body last := by
  obtain ⟨body, p, hts, hinner⟩ := exists_body_of_scan h
  exact ⟨body, Token.eof p, hts, rfl, hinner⟩

namespace Scanned

variable {n : Nat} {ts body before : List Token} {last t : Token} {e : Expr}

theorem valued (h : Scanned ts body last) : ∀ t ∈ ts, t.Valued := by
  intro t ht
  rw [h.split] at ht
  rcases List.mem_append.mp ht with ht | ht
  · exact (h.inner t ht).1
  · obtain rfl := List.mem_singleton.mp ht
    simp [Token.Valued, h.ends, Kind.isLiteral]

theorem mayEnd (h : Scanned ts body last) : (Kind.illegal.after ts).mayEnd = true := by
  rw [h.split, Kind.after_append, Kind.after_cons, h.ends]
  rfl

theorem expressionTokens_eq (h : Scanned ts body last) : expressionTokens ts = body := by
  have hbody : expressionTokens body = body := by
    apply List.filter_eq_self.mpr
    intro t ht
    simpa using (h.inner t ht).2
  rw [h.split, expressionTokens, List.filter_append, ← expressionTokens, hbody]
  simp [h.ends]

/-- Either a token is misplaced or the check passes. -/
theorem checkSyntax_cases (h : Scanned ts body last) (n : Nat) :
    (∃ before t c, FirstAt Misplaced ts before t ∧
        (Cursor.ofTokens n ts).checkSyntax = (.error (.transition before.getLast? t), c)) ∨
      Kind.illegal.Leads ts ∧
        (Cursor.ofTokens n ts).checkSyntax = (.ok (), Cursor.ofTokens n ts) := by
  rcases (Cursor.ofTokens n ts).checkSyntax_cases with
    ⟨hleads, _, hcheck⟩ | ⟨_, hends, _⟩ | ⟨before, t, rest, hrest, hleads, hstuck, hcheck⟩
  · exact .inr ⟨hleads, hcheck⟩
  · rw [Cursor.rest_ofTokens, h.mayEnd] at hends
    cases hends
  · rw [Cursor.rest_ofTokens] at hrest
    have hfirst := hleads.firstAt_misplaced hstuck rest
    rw [← hrest] at hfirst
    exact .inl ⟨before, t, _, hfirst, hcheck⟩

theorem compileTokens_of_misplaced (h : Scanned ts body last)
    (balanced : countKind .openParen ts = countKind .closeParen ts)
    (first : FirstAt Misplaced ts before t) :
    compileTokens n ts = .error (.grammar (.transition before.getLast? t)) := by
  rcases h.checkSyntax_cases n with ⟨us, u, c, hfirst, hcheck⟩ | ⟨hleads, _⟩
  · obtain ⟨rfl, rfl⟩ := first.unique hfirst
    exact (compileTokens_of_balanced balanced).1 _ c hcheck
  · exact absurd first.holds (hleads.nowhere_misplaced _ _ first.here)

/-- Where no token is misplaced, what the tokens compile to is what they are planned as. -/
theorem compileTokens_of_placed (h : Scanned ts body last)
    (balanced : countKind .openParen ts = countKind .closeParen ts)
    (placed : Nowhere Misplaced ts) :
    Kind.illegal.Leads ts ∧ compileTokens n ts = planTokens (Cursor.ofTokens n ts) := by
  rcases h.checkSyntax_cases n with ⟨us, u, c, hfirst, _⟩ | ⟨hleads, hcheck⟩
  · exact absurd hfirst.holds (placed _ _ hfirst.here)
  · exact ⟨hleads, (compileTokens_of_balanced balanced).2 _ hcheck⟩

/-- The tokens in front of the first stray parenthesis are a phrase. -/
theorem phrase_of_stray (h : Scanned ts body last) (leads : Kind.illegal.Leads ts)
    (first : FirstAt Stray ts before t) : Phrase .illegal before := by
  have hclose := first.holds.1
  have hbefore : before ++ [t] <+: body := by
    have hhere := first.here
    rw [h.split] at hhere
    rcases List.prefix_concat_iff.mp hhere with heq | hinit
    · have hlast := (List.append_singleton_inj.mp heq).2
      rw [hlast, h.ends] at hclose
      cases hclose
    · exact hinit
  have hinner : ∀ u ∈ before, u.Inner :=
    fun u hu => h.inner u (hbefore.subset (List.mem_append_left [t] hu))
  obtain ⟨rest, hrest⟩ := first.here
  rw [← hrest, List.append_assoc, Kind.leads_append] at leads
  have hadmits := leads.2.1
  rw [hclose] at hadmits
  exact ⟨leads.1, Kind.mayEnd_of_admits_closeParen hadmits, first.nested,
    fun u hu => (hinner u hu).1, fun u hu => (hinner u hu).2⟩

theorem compileTokens_of_stray (h : Scanned ts body last)
    (balanced : countKind .openParen ts = countKind .closeParen ts)
    (placed : Nowhere Misplaced ts) (first : FirstAt Stray ts before t) :
    compileTokens n ts = .error (.plan (.unplannable t)) := by
  obtain ⟨hleads, hcompile⟩ := h.compileTokens_of_placed (n := n) balanced placed
  obtain ⟨rest, rfl⟩ := first.here
  have hclose := first.holds.1
  have hends : Tier.or.Ends (t :: rest) := Tier.ends_of_not_joiner (.inr hclose)
  obtain ⟨tree, _, hbuild⟩ := (h.phrase_of_stray hleads first).exists_tree hends n
  have hnot : t.kind ≠ .eof := by simp [hclose]
  rw [Cursor.endsWith, if_neg hnot] at hbuild
  rw [hcompile]
  apply planTokens_of_error
  rw [List.append_assoc]
  exact hbuild

theorem exists_tree (h : Scanned ts body last) (leads : Kind.illegal.Leads ts)
    (nested : Nested ts) (n : Nat) :
    ∃ tree, Parses .or (expressionTokens ts) tree ∧
      (Cursor.ofTokens n ts).buildAll.1 = .ok tree := by
  have hphrase := Phrase.of_leads h.valued leads h.mayEnd nested
  have hends : Tier.or.Ends [last] := Tier.ends_of_not_joiner (.inl h.ends)
  obtain ⟨tree, hparse, hbuild⟩ := hphrase.exists_tree hends n
  rw [h.expressionTokens_eq, ← h.split, Cursor.endsWith, if_pos h.ends] at hbuild
  exact ⟨tree, hparse, hbuild⟩

theorem compileTokens_of_parses (h : Scanned ts body last)
    (balanced : countKind .openParen ts = countKind .closeParen ts)
    (placed : Nowhere Misplaced ts) (unstrayed : Nowhere Stray ts)
    (parses : Parses .or (expressionTokens ts) e) : compileTokens n ts = .ok e := by
  obtain ⟨hleads, hcompile⟩ := h.compileTokens_of_placed (n := n) balanced placed
  obtain ⟨tree, hparse, hbuild⟩ := h.exists_tree hleads (nested_of_no_stray balanced unstrayed) n
  obtain rfl := parses.unique hparse
  rw [hcompile]
  exact planTokens_of_node hbuild parses.isNode

end Scanned

theorem compile_of_scan {source : String} {ts : List Token} (h : scan source = .ok ts) :
    compile source = compileTokens (byteLength source.toList) ts := by
  rw [compile, h]

/-- A rule that applies says what a source compiles to. -/
theorem Compiles.compile_eq {source : String} {r : Except CompileError Expr}
    (h : Compiles source r) : compile source = r := by
  cases h with
  | scan fault => rw [compile, fault]
  | unbalanced scanned unequal =>
    rw [compile_of_scan scanned, compileTokens_of_unequal unequal]
  | misplaced scanned balanced first =>
    obtain ⟨body, last, hts⟩ := exists_scanned scanned
    rw [compile_of_scan scanned, hts.compileTokens_of_misplaced balanced first]
  | stray scanned balanced placed first =>
    obtain ⟨body, last, hts⟩ := exists_scanned scanned
    rw [compile_of_scan scanned, hts.compileTokens_of_stray balanced placed first]
  | tree scanned balanced placed unstrayed parses =>
    obtain ⟨body, last, hts⟩ := exists_scanned scanned
    rw [compile_of_scan scanned, hts.compileTokens_of_parses balanced placed unstrayed parses]

theorem exists_compiles_tree {source : String} {ts : List Token} (scanned : scan source = .ok ts)
    (balanced : countKind .openParen ts = countKind .closeParen ts)
    (placed : Nowhere Misplaced ts) (unstrayed : Nowhere Stray ts) :
    ∃ e, Compiles source (.ok e) := by
  obtain ⟨body, last, hts⟩ := exists_scanned scanned
  obtain ⟨hleads, _⟩ := hts.compileTokens_of_placed (n := 0) balanced placed
  obtain ⟨e, hparse, _⟩ := hts.exists_tree hleads (nested_of_no_stray balanced unstrayed) 0
  exact ⟨e, .tree scanned balanced placed unstrayed hparse⟩

/-- To every source a rule applies. -/
theorem exists_compiles (source : String) : ∃ r, Compiles source r := by
  cases hscan : scan source with
  | error e => exact ⟨_, .scan hscan⟩
  | ok ts =>
    by_cases hcount : countKind .openParen ts = countKind .closeParen ts
    case neg => exact ⟨_, .unbalanced hscan hcount⟩
    by_cases hplaced : Nowhere Misplaced ts
    case neg =>
      obtain ⟨before, t, hfirst⟩ := FirstAt.exists_of_not_nowhere hplaced
      exact ⟨_, .misplaced hscan hcount hfirst⟩
    by_cases hstray : Nowhere Stray ts
    case neg =>
      obtain ⟨before, t, hfirst⟩ := FirstAt.exists_of_not_nowhere hstray
      exact ⟨_, .stray hscan hcount hplaced hfirst⟩
    obtain ⟨e, he⟩ := exists_compiles_tree hscan hcount hplaced hstray
    exact ⟨_, he⟩

theorem compiles_compile (source : String) : Compiles source (compile source) := by
  obtain ⟨r, hr⟩ := exists_compiles source
  rw [hr.compile_eq]
  exact hr

/-- Compiling is decided by the rules: sources that scan, balance and have no misplaced and no stray
token have a tree, and of the errors in the grammar and in planning only three are reached, each
reported at its token. -/
theorem compile_decided (source : String) :
    (∀ r, compile source = r ↔ Compiles source r) ∧
      (∀ ts, scan source = .ok ts → ts.getLast?.map Token.kind = some .eof ∧
        (countKind .openParen ts = countKind .closeParen ts → Nowhere Misplaced ts →
          Nowhere Stray ts → ∃ e, compile source = .ok e)) ∧
      ∀ e, compile source = .error e → e ≠ .noExpression ∧
        (∀ n, e ≠ .grammar (.unfinished n)) ∧ (∀ k s, e ≠ .plan (.missingParen k s)) ∧
        (∀ last t, e = .grammar (.transition last t) → e.span? = some t.span) ∧
        ∀ t, e = .plan (.unplannable t) → t.kind = .closeParen ∧ e.span? = some t.span := by
  refine ⟨fun r => ⟨fun h => h ▸ compiles_compile source, Compiles.compile_eq⟩, ?_, ?_⟩
  · intro ts hscan
    constructor
    · obtain ⟨body, last, hts⟩ := exists_scanned hscan
      simp [hts.split, hts.ends]
    · intro balanced placed unstrayed
      obtain ⟨e, he⟩ := exists_compiles_tree hscan balanced placed unstrayed
      exact ⟨e, he.compile_eq⟩
  · intro e he
    have hrule := compiles_compile source
    rw [he] at hrule
    have hspan : ∀ last t, e = .grammar (.transition last t) → e.span? = some t.span := by
      rintro last t rfl
      rfl
    cases hrule with
    | scan | unbalanced | misplaced =>
      exact ⟨nofun, nofun, nofun, hspan, nofun⟩
    | stray _ _ _ first =>
      refine ⟨nofun, nofun, nofun, hspan, ?_⟩
      rintro t ⟨⟩
      exact ⟨first.holds.1, rfl⟩

end Formula
