import Mathlib.Data.List.DropRight
import Formula.Proofs.Slices
import Formula.Proofs.Verdicts

/-! What reports point at. A plan complains of one of its tokens or of the end of their source. All
labels cover text of the source but one, which is counted in bytes from the end. -/
namespace Formula

inductive PlanError.About (n : Nat) (ts : List Token) : PlanError → Prop where
  | unplannable {t : Token} (mem : t ∈ ts) : About n ts (.unplannable t)
  | unclosed {t : Token} (mem : t ∈ ts) : About n ts (.missingParen t.kind t.span)
  | unended : About n ts (.missingParen .eof ⟨n, 0⟩)

theorem PlanError.About.mono {n : Nat} {ts us : List Token} {e : PlanError} (h : e.About n ts)
    (hsub : ts ⊆ us) : e.About n us := by
  cases h with
  | unplannable mem => exact .unplannable (hsub mem)
  | unclosed mem => exact .unclosed (hsub mem)
  | unended => exact .unended

def Planned.Blames (n : Nat) {ts : List Token} (p : Planned ts) : Prop :=
  ∀ e, p.outcome = .error e → e.About n ts

section Planning

variable {n : Nat} {level : Level} {ts us : List Token}

theorem Planned.Blames.map {p : Planned ts} (h : p.Blames n) (f : Expr → Expr) :
    (p.map f).Blames n := by
  intro e he
  apply h
  cases houtcome : p.outcome with
  | error => simpa [Planned.map, houtcome, Except.map] using he
  | ok => simp [Planned.map, houtcome, Except.map] at he

theorem Planned.Blames.widen {p : Planned us} (h : p.Blames n) (hsuffix : us <:+ ts) :
    (p.widen hsuffix).Blames n :=
  fun e he => (h e he).mono hsuffix.subset

theorem Planned.Blames.close {p : Planned ts} (h : p.Blames n) : (p.close n).Blames n := by
  obtain ⟨outcome, rest, suffix⟩ := p
  intro e he
  cases outcome with
  | error e' => exact h e he
  | ok inner =>
    cases rest with
    | nil =>
      obtain rfl := Except.error.inj he
      exact .unended
    | cons t more =>
      simp only [Planned.close] at he
      split at he
      · cases he
      · obtain rfl := Except.error.inj he
        exact .unclosed (suffix.subset List.mem_cons_self)

theorem blames_planLevel (first : (planFirst n level ts).Blames n)
    (second : ∀ t more, (planFirst n level ts).rest = t :: more →
      (planLevel n level more).Blames n) : (planLevel n level ts).Blames n := by
  rcases planLevel_cases n level ts with heq | ⟨l, t, more, symbol, hfirst, _, hplan, _⟩
  · rw [heq]
    exact first
  have hsuffix : more <:+ ts := by
    have hrest := (planFirst n level ts).suffix
    rw [hfirst.2] at hrest
    exact (List.suffix_cons t more).trans hrest
  have hjoined := ((second t more hfirst.2).map (.operation symbol l)).widen hsuffix
  intro e he
  rw [hplan] at he
  exact hjoined e he

theorem blames_planOperand
    (inner : ∀ us level, us.length < ts.length → (planLevel n level us).Blames n) :
    (planOperand n ts).Blames n := by
  cases ts with
  | nil =>
    rw [planOperand]
    rintro e ⟨⟩
  | cons t more =>
    have hless : more.length < (t :: more).length := Nat.lt_succ_self _
    rw [planOperand]
    split
    · exact (inner more _ hless).close.widen _
    · split
      · rintro e ⟨⟩
      · exact ((inner more _ hless).map _).widen _
      · split
        · rintro e ⟨⟩
        · rintro e ⟨⟩
          exact .unplannable List.mem_cons_self

theorem planLevel_blames (n : Nat) (level : Level) (ts : List Token) :
    (planLevel n level ts).Blames n :=
  planLevel_induction (P := Planned.Blames n) (fun _ _ => blames_planLevel)
    (fun _ => blames_planOperand) level ts

end Planning

namespace Cursor

variable {n : Nat} {ts : List Token} {c : Cursor} {e : PlanError}

theorem about_build (h : c.build.1 = .error e) : e.About c.sourceLength c.tokens :=
  (planLevel_blames c.sourceLength .lowest c.rest e h).mono c.rest_suffix.subset

theorem about_buildAll (h : c.buildAll.1 = .error e) : e.About c.sourceLength c.tokens := by
  unfold buildAll at h
  split at h
  · next e' behind hbuild =>
    obtain rfl := Except.error.inj h
    exact about_build (congrArg Prod.fst hbuild)
  · next inner behind hbuild =>
    have htokens : behind.tokens = c.tokens := congrArg (fun p => p.2.tokens) hbuild.symm
    split at h
    · cases h
    · next t hcurrent =>
      have hmem : t ∈ c.tokens := htokens ▸ List.mem_of_getElem? hcurrent
      simp only at h
      split at h
      · cases h
      · obtain rfl := Except.error.inj h
        exact .unplannable hmem

end Cursor

section Labels

variable {cs : List Char} {n : Nat} {ts : List Token} {c : Cursor} {d : Diagnostic}

def Diagnostic.PointsInto (d : Diagnostic) (cs : List Char) : Prop :=
  ∃ label, d.label = some label ∧ label.span.Addresses cs

theorem Span.addresses_all (cs : List Char) : (Span.mk 0 (byteLength cs)).Addresses cs :=
  ⟨[], cs, [], by simp, rfl, rfl⟩

theorem Span.addresses_end (cs : List Char) : (Span.mk (byteLength cs) 0).Addresses cs :=
  ⟨cs, [], [], by simp, rfl, rfl⟩

/-- The last byte of a text by itself is text exactly if it is the whole of the last character. -/
theorem Span.addresses_lastByte_iff (cs : List Char) :
    (Span.mk (byteLength cs - 1) (byteLength cs - (byteLength cs - 1))).Addresses cs ↔
      ∀ last ∈ cs.getLast?, last.utf8Size = 1 := by
  rcases List.eq_nil_or_concat' cs with rfl | ⟨cs, last, rfl⟩
  · simpa using Span.addresses_all []
  · have hsize := last.utf8Size_pos
    have hlength : byteLength (cs ++ [last]) = byteLength cs + last.utf8Size := by simp
    rw [List.getLast?_concat, hlength]
    constructor
    · rintro ⟨front, text, back, hparts, hoffset, -⟩
      simp only at hoffset
      rw [List.append_assoc] at hparts
      rcases List.eq_nil_or_concat' (text ++ back) with hnil | ⟨inner, d, hconcat⟩
      · rw [hnil, List.append_nil] at hparts
        rw [← hparts, hlength] at hoffset
        omega
      · rw [hconcat, ← List.append_assoc] at hparts
        obtain ⟨rfl, rfl⟩ := List.append_singleton_inj.mp hparts
        rw [byteLength_append] at hoffset
        simp only [Option.mem_some_iff, forall_eq']
        omega
    · intro h
      have hone : last.utf8Size = 1 := by simpa using h
      refine ⟨cs, [last], [], by simp, ?_, ?_⟩
      · simp [hone]
      · simp [hone]

theorem PlanError.About.pointsInto {e : PlanError} (h : e.About (byteLength cs) ts)
    (hts : ∀ t ∈ ts, t.span.Addresses cs) : e.diagnostic.PointsInto cs := by
  cases h with
  | unplannable mem => exact ⟨_, rfl, hts _ mem⟩
  | unclosed mem => exact ⟨_, rfl, hts _ mem⟩
  | unended => exact ⟨_, rfl, Span.addresses_end cs⟩

inductive Complaint (source : String) (c : Cursor) : Diagnostic → Prop where
  | scan {e : ScanError} (fault : (tokenize source).2 = some e) : Complaint source c e.diagnostic
  | balance {e : GrammarError} (failed : c.checkBalance.1 = .error e) :
      Complaint source c e.diagnostic
  | grammar {e : GrammarError} (failed : c.checkSyntax.1 = .error e) :
      Complaint source c e.diagnostic
  | build {e : PlanError} (failed : c.build.1 = .error e) : Complaint source c e.diagnostic
  | buildAll {e : PlanError} (failed : c.buildAll.1 = .error e) : Complaint source c e.diagnostic

theorem Cursor.Over.checkBalance_pointsInto {e : GrammarError} (h : c.Over (byteLength cs) ts)
    (failed : c.checkBalance.1 = .error e) : e.diagnostic.PointsInto cs := by
  by_cases hbalanced : Balanced c.rest
  · simp [Cursor.checkBalance_of_balanced hbalanced] at failed
  · rw [Cursor.checkBalance_of_not_balanced hbalanced, h.sourceLength] at failed
    obtain rfl := Except.error.inj failed
    exact ⟨_, rfl, Span.addresses_all cs⟩

theorem Cursor.Over.checkSyntax_pointsInto {e : GrammarError} (h : c.Over n ts)
    (hts : ∀ t ∈ ts, t.span.Addresses cs) (failed : c.checkSyntax.1 = .error e) :
    e = .unfinished n ∨ e.diagnostic.PointsInto cs := by
  rcases c.checkSyntax_cases with
    ⟨_, _, hcheck⟩ | ⟨_, _, hcheck⟩ | ⟨before, t, rest, hrest, _, _, hcheck⟩
  · simp [hcheck] at failed
  · rw [hcheck, h.sourceLength] at failed
    exact .inl (Except.error.inj failed).symm
  · rw [hcheck] at failed
    obtain rfl := Except.error.inj failed
    have hmem : t ∈ ts := by
      rw [← h.tokens]
      exact c.rest_suffix.subset (by simp [hrest])
    exact .inr ⟨_, rfl, hts t hmem⟩

/-- A report either says that the tokens are unfinished or points at text. -/
theorem Complaint.pointsInto {source : String} (h : Complaint source c d)
    (hover : c.Over (byteLength source.toList) ts)
    (hts : ∀ t ∈ ts, t.span.Addresses source.toList) :
    d = (GrammarError.unfinished (byteLength source.toList)).diagnostic ∨
      d.PointsInto source.toList := by
  cases h with
  | scan fault => exact .inr ⟨_, rfl, ScanError.addresses_of_tokenize fault⟩
  | balance failed => exact .inr (hover.checkBalance_pointsInto failed)
  | grammar failed => exact (hover.checkSyntax_pointsInto hts failed).imp_left (congrArg _)
  | build failed =>
    have habout := Cursor.about_build failed
    rw [hover.sourceLength, hover.tokens] at habout
    exact .inr (habout.pointsInto hts)
  | buildAll failed =>
    have habout := Cursor.about_buildAll failed
    rw [hover.sourceLength, hover.tokens] at habout
    exact .inr (habout.pointsInto hts)

/-- Every report on a source or on the first of its tokens has a label, whatever has been called
before, and the label covers text of the source; but that of unfinished tokens does not where the
last character of the source takes more than one byte. -/
theorem labels_address_text (source : String) (dropped : Nat) (moves : List Move) (d : Diagnostic)
    (complaint : Complaint source
      ((Cursor.ofTokens (byteLength source.toList) ((tokenize source).1.rdrop dropped)).run moves)
      d) :
    ∃ label, d.label = some label ∧ (label.span.Addresses source.toList ↔
      (d = (GrammarError.unfinished (byteLength source.toList)).diagnostic →
        ∀ last ∈ source.toList.getLast?, last.utf8Size = 1)) := by
  have hover := Cursor.Over.run (c := Cursor.ofTokens (byteLength source.toList)
    ((tokenize source).1.rdrop dropped)) ⟨rfl, rfl⟩ moves
  have hts : ∀ t ∈ (tokenize source).1.rdrop dropped, t.span.Addresses source.toList :=
    fun t ht => Token.addresses_of_tokenize (List.mem_of_mem_take ht)
  rcases complaint.pointsInto hover hts with rfl | ⟨label, hlabel, haddresses⟩
  · refine ⟨_, rfl, ?_⟩
    simpa using Span.addresses_lastByte_iff source.toList
  · refine ⟨label, hlabel, fun _ hd => ?_, fun _ => haddresses⟩
    obtain rfl : _ = label := Option.some.inj (hd ▸ hlabel)
    exact (Span.addresses_lastByte_iff source.toList).mp haddresses

/-- The parenthesis of `(é`, which is not closed before the end. -/
theorem openedName_labelled :
    Complaint "(é" ((Cursor.ofTokens 3 ((tokenize "(é").1.rdrop 1)).run
        [.checkBalance, .rewind, .rewind]) (PlanError.missingParen .eof ⟨3, 0⟩).diagnostic ∧
      ∃ label, (PlanError.missingParen .eof ⟨3, 0⟩).diagnostic.label = some label ∧
        label.span.Addresses "(é".toList := by
  have hfailed : ((Cursor.ofTokens 3 ((tokenize "(é").1.rdrop 1)).run
      [.checkBalance, .rewind, .rewind]).buildAll.1 = .error (.missingParen .eof ⟨3, 0⟩) := by
    decide +kernel
  have hother : (PlanError.missingParen .eof ⟨3, 0⟩).diagnostic ≠
      (GrammarError.unfinished 3).diagnostic := by decide +kernel
  obtain ⟨label, hlabel, haddresses⟩ := labels_address_text "(é" 1
    [.checkBalance, .rewind, .rewind] _ (.buildAll hfailed)
  exact ⟨.buildAll hfailed, label, hlabel, haddresses.mpr fun heq => absurd heq hother⟩

/-- The tokens `1 +` of `1 + é`: their report points at the second byte of the letter. -/
theorem severedLetter_mislabelled :
    Complaint "1 + é" (Cursor.ofTokens (byteLength "1 + é".toList) ((tokenize "1 + é").1.rdrop 2))
        (GrammarError.unfinished 6).diagnostic ∧
      (GrammarError.unfinished 6).diagnostic.label = some ⟨"expression ends here", ⟨5, 1⟩⟩ ∧
      ¬ (Span.mk 5 1).Addresses "1 + é".toList := by
  have hfailed : (Cursor.ofTokens (byteLength "1 + é".toList)
      ((tokenize "1 + é").1.rdrop 2)).checkSyntax.1 = .error (.unfinished 6) := by decide +kernel
  refine ⟨.grammar hfailed, rfl, fun h => ?_⟩
  have hone := (Span.addresses_lastByte_iff "1 + é".toList).mp h 'é' rfl
  simp [Char.utf8Size] at hone

end Labels
end Formula
