import Formula.Proofs.Compilation
import Formula.Proofs.Seams

/-! Sources put together from sources. What a source compiles to is decided by what its tokens say,
so it can be told from the texts that it is put together from. -/
namespace Formula

section Alike

variable {k : Kind} {t u : Token} {ts us : List Token} {tier : Tier} {e : Expr}

theorem kinds_of_contents (h : us.map Token.content = ts.map Token.content) :
    us.map Token.kind = ts.map Token.kind := by
  simpa [Function.comp_def, Token.content] using congrArg (List.map Content.kind) h

theorem Token.kind_eq_of_content (h : u.content = t.content) : u.kind = t.kind :=
  congrArg Content.kind h

theorem Token.value_eq_of_content (h : u.content = t.content)
    (hoperand : t.kind.isOperand = true) : u.value = t.value := by
  simpa [content, kind_eq_of_content h, hoperand] using congrArg Content.value h

theorem Token.valued_of_content (h : u.content = t.content) (ht : t.Valued) : u.Valued := by
  have hkind := kind_eq_of_content h
  refine ⟨fun hname => ?_, fun hliteral => ?_⟩
  · rw [hkind] at hname
    rw [value_eq_of_content h (by simp [Kind.isOperand, hname])]
    exact ht.1 hname
  · rw [hkind] at hliteral
    rw [value_eq_of_content h (by simp [Kind.isOperand, hliteral]), hkind]
    exact ht.2 hliteral

theorem Kind.after_eq_of_kinds (h : us.map Token.kind = ts.map Token.kind) (k : Kind) :
    k.after us = k.after ts := by
  have hafter : ∀ vs : List Token, k.after vs = (vs.map Token.kind).foldl (fun _ j => j) k := by
    simp [after, List.foldl_map]
  rw [hafter, h, ← hafter]

theorem Kind.leads_of_kinds (h : us.map Token.kind = ts.map Token.kind) (hleads : k.Leads ts) :
    k.Leads us := by
  induction us generalizing k ts with
  | nil => trivial
  | cons u us ih =>
    obtain ⟨t, ts, rfl, hkind, htail⟩ := List.map_eq_cons_iff.mp h.symm
    rw [leads_cons, ← hkind]
    exact ⟨hleads.1, ih htail.symm hleads.2⟩

theorem countKind_eq_of_kinds (h : us.map Token.kind = ts.map Token.kind) (k : Kind) :
    countKind k us = countKind k ts := by
  have hcount : ∀ vs : List Token, countKind k vs = (vs.map Token.kind).countP (· = k) := by
    simp [countKind, List.countP_map, Function.comp_def]
  rw [hcount, h, ← hcount]

theorem Nested.of_kinds (hnested : Nested ts) (h : us.map Token.kind = ts.map Token.kind) :
    Nested us where
  balanced := by
    rw [countKind_eq_of_kinds h, countKind_eq_of_kinds h]
    exact hnested.balanced
  closed_le vs hvs := by
    have htake : (us.take vs.length).map Token.kind = (ts.take vs.length).map Token.kind := by
      rw [List.map_take, h, List.map_take]
    rw [List.prefix_iff_eq_take.mp hvs, countKind_eq_of_kinds htake, countKind_eq_of_kinds htake]
    exact hnested.closed_le _ (List.take_prefix _ _)

theorem Phrase.of_contents (hphrase : Phrase k ts)
    (h : us.map Token.content = ts.map Token.content) : Phrase k us := by
  have hkinds := kinds_of_contents h
  have hmem : ∀ u ∈ us, ∃ t ∈ ts, t.content = u.content := by
    intro u hu
    rw [← List.mem_map, ← h]
    exact List.mem_map_of_mem hu
  refine ⟨Kind.leads_of_kinds hkinds hphrase.leads, ?_, hphrase.nested.of_kinds hkinds, ?_, ?_⟩
  · rw [Kind.after_eq_of_kinds hkinds]
    exact hphrase.ends
  · intro u hu
    obtain ⟨t, ht, hcontent⟩ := hmem u hu
    exact Token.valued_of_content hcontent.symm (hphrase.valued t ht)
  · intro u hu
    obtain ⟨t, ht, hcontent⟩ := hmem u hu
    rw [← Token.kind_eq_of_content hcontent]
    exact hphrase.unended t ht

/-- What tokens parse as is decided by what they say. -/
theorem Parses.of_contents (hparse : Parses tier ts e)
    (h : us.map Token.content = ts.map Token.content) : Parses tier us e := by
  induction hparse generalizing us with
  | identifier hkind hvalue =>
    obtain ⟨u, rfl, hu⟩ := List.map_eq_singleton_iff.mp h
    refine .identifier ((Token.kind_eq_of_content hu).trans hkind) ?_
    rw [Token.value_eq_of_content hu (by rw [hkind]; rfl), hvalue]
  | @literal t v hkind hvalue =>
    obtain ⟨u, rfl, hu⟩ := List.map_eq_singleton_iff.mp h
    refine .literal ((Token.kind_eq_of_content hu).trans hkind) ?_
    rw [Token.value_eq_of_content hu (by rw [hkind]; cases v <;> rfl), hvalue]
  | group hopens _ hcloses ih =>
    rw [List.map_cons, List.map_append, List.map_singleton] at h
    obtain ⟨opening, more, rfl, hopening, hmore⟩ := List.map_eq_cons_iff.mp h
    obtain ⟨inner, last, rfl, hinner, hlast⟩ := List.map_eq_append_iff.mp hmore
    obtain ⟨closing, rfl, hclosing⟩ := List.map_eq_singleton_iff.mp hlast
    exact .group ((Token.kind_eq_of_content hopening).trans hopens) (ih hinner)
      ((Token.kind_eq_of_content hclosing).trans hcloses)
  | signed sign hkind _ ih =>
    obtain ⟨u, more, rfl, hu, hmore⟩ := List.map_eq_cons_iff.mp h
    exact .signed sign ((Token.kind_eq_of_content hu).trans hkind) (ih hmore)
  | invert hkind _ ih =>
    obtain ⟨u, more, rfl, hu, hmore⟩ := List.map_eq_cons_iff.mp h
    exact .invert ((Token.kind_eq_of_content hu).trans hkind) (ih hmore)
  | join step _ hoperator _ ihl ihr =>
    rw [List.map_append] at h
    obtain ⟨ls, more, rfl, hls, hmore⟩ := List.map_eq_append_iff.mp h
    obtain ⟨u, rs, rfl, hu, hrs⟩ := List.map_eq_cons_iff.mp hmore
    rw [← Token.kind_eq_of_content hu] at hoperator
    exact .join step (ihl hls) hoperator (ihr hrs)
  | descend step _ ih => exact .descend step (ih h)

end Alike

section Phrases

variable {k : Kind} {t : Token} {ts ls rs : List Token} {tier other : Tier} {e : Expr}

theorem Nested.append (hl : Nested ls) (hr : Nested rs) : Nested (ls ++ rs) where
  balanced := by simp [hl.balanced, hr.balanced]
  closed_le us hus := by
    rcases List.prefix_or_prefix_of_prefix hus (List.prefix_append ls rs) with hle | ⟨vs, rfl⟩
    · exact hl.closed_le us hle
    · have hvs := hr.closed_le vs ((List.prefix_append_right_inj ls).mp hus)
      simpa [hl.balanced] using hvs

theorem nested_singleton (hopen : t.kind ≠ .openParen) (hclose : t.kind ≠ .closeParen) :
    Nested [t] where
  balanced := by simp [hopen, hclose]
  closed_le us hus := by
    cases us with
    | nil => simp
    | cons u us =>
      obtain ⟨rfl, hnil⟩ := List.cons_prefix_cons.mp hus
      simp [List.prefix_nil.mp hnil, hclose]

/-- Nested tokens hold no stray parenthesis. -/
theorem Nested.nowhere_stray (h : Nested ts) : Nowhere Stray ts := by
  intro us u hus hstray
  have hle := h.closed_le _ hus
  have hlt := hstray.2
  omega

theorem Kind.after_ne_eof (hk : k ≠ .eof) (h : ∀ t ∈ ts, t.kind ≠ .eof) : k.after ts ≠ .eof := by
  induction ts generalizing k with
  | nil => exact hk
  | cons t ts ih =>
    rw [List.forall_mem_cons] at h
    exact ih h.1 h.2

theorem Phrase.append (hl : Phrase k ls) (hr : Phrase (k.after ls) rs) : Phrase k (ls ++ rs) where
  leads := Kind.leads_append.mpr ⟨hl.leads, hr.leads⟩
  ends := by
    rw [Kind.after_append]
    exact hr.ends
  nested := hl.nested.append hr.nested
  valued := List.forall_mem_append.mpr ⟨hl.valued, hr.valued⟩
  unended := List.forall_mem_append.mpr ⟨hl.unended, hr.unended⟩

theorem Kind.admits_closeParen_of_mayEnd (h : k.mayEnd = true) (hk : k ≠ .eof) :
    k.admits .closeParen = true := by
  cases k <;> first | rfl | exact absurd rfl hk | cases h

/-- A token of an operator or a parenthesis, wherever it may stand. -/
def Kind.mark (k : Kind) : Token := ⟨k, none, 0, ⟨0, 0⟩⟩

theorem Kind.valued_mark (h : k.isOperand = false) : k.mark.Valued := by
  simp only [isOperand, Bool.or_eq_false_iff, decide_eq_false_iff_not] at h
  exact ⟨fun hname => absurd hname h.1, fun hliteral => absurd hliteral (by simp [mark, h.2])⟩

def grouped (ts : List Token) : List Token := Kind.openParen.mark :: (ts ++ [Kind.closeParen.mark])

theorem Nested.grouped (h : Nested ts) : Nested (grouped ts) where
  balanced := by simp [Formula.grouped, Kind.mark, h.balanced]
  closed_le us hus := by
    cases us with
    | nil => simp
    | cons u us =>
      obtain ⟨rfl, hinner⟩ := List.cons_prefix_cons.mp hus
      rcases List.prefix_concat_iff.mp hinner with rfl | hinner
      · simp [Kind.mark, h.balanced]
      · have hle := h.closed_le us hinner
        simp only [countKind_cons, Kind.mark, reduceCtorEq, if_true, if_false]
        omega

/-- Where a parenthesis may open, what stands inside is what may stand at the beginning. -/
theorem Phrase.grouped (h : Phrase .illegal ts) (hk : k.admits .openParen = true) :
    Phrase k (grouped ts) := by
  -- A group begins with the kinds that a source begins with, so only the kind in front differs.
  have hinner : Kind.openParen.Leads ts ∧ (Kind.openParen.after ts).mayEnd = true := by
    cases ts with
    | nil => cases h.ends
    | cons t ts => exact ⟨h.leads, h.ends⟩
  have hclose : (Kind.openParen.after ts).admits .closeParen = true :=
    Kind.admits_closeParen_of_mayEnd hinner.2 (Kind.after_ne_eof (by decide) h.unended)
  refine ⟨⟨hk, ?_⟩, ?_, h.nested.grouped, ?_, ?_⟩
  · exact Kind.leads_append.mpr ⟨hinner.1, hclose, trivial⟩
  · simp [Formula.grouped, Kind.mark, Kind.mayEnd]
  · have hopening : Kind.openParen.mark.Valued := Kind.valued_mark rfl
    have hclosing : Kind.closeParen.mark.Valued := Kind.valued_mark rfl
    exact List.forall_mem_cons.mpr
      ⟨hopening, List.forall_mem_append.mpr ⟨h.valued, List.forall_mem_singleton.mpr hclosing⟩⟩
  · exact List.forall_mem_cons.mpr
      ⟨by decide, List.forall_mem_append.mpr ⟨h.unended, List.forall_mem_singleton.mpr (by decide)⟩⟩

/-- A phrase in front of which an operator stands. -/
theorem Phrase.cons_mark {j : Kind} (h : Phrase j ts) (hk : k.admits j = true)
    (hmark : j.IsMark) (hopen : j ≠ .openParen) (hclose : j ≠ .closeParen) :
    Phrase k (j.mark :: ts) := by
  have hvalued : j.mark.Valued := Kind.valued_mark (by simp [Kind.isOperand, hmark.1, hmark.2.1])
  refine ⟨⟨hk, h.leads⟩, h.ends, ?_, ?_, ?_⟩
  · exact (nested_singleton hopen hclose : Nested [j.mark]).append h.nested
  · exact List.forall_mem_cons.mpr ⟨hvalued, h.valued⟩
  · exact List.forall_mem_cons.mpr ⟨hmark.2.2, h.unended⟩

theorem Tier.exists_tighter? (h : tier.rank < other.rank) :
    ∃ next, other.tighter? = some next ∧ tier.rank ≤ next.rank := by
  cases hnext : other.tighter? with
  | none =>
    cases other <;> simp [tighter?, rank] at hnext h
  | some next =>
    have := rank_of_tighter? hnext
    exact ⟨next, rfl, by omega⟩

/-- An expression of a tier is one of every looser tier. -/
theorem Parses.loosen (h : Parses tier ts e) (hrank : tier.rank ≤ other.rank) :
    Parses other ts e := by
  induction hsize : other.rank generalizing other with
  | zero =>
    obtain rfl : tier = other := Tier.eq_of_rank_eq (by omega)
    exact h
  | succ n ih =>
    by_cases heq : tier = other
    · exact heq ▸ h
    · have hne : tier.rank ≠ other.rank := fun hrank => heq (Tier.eq_of_rank_eq hrank)
      obtain ⟨next, hnext, hle⟩ := Tier.exists_tighter? (by omega : tier.rank < other.rank)
      have := Tier.rank_of_tighter? hnext
      exact .descend hnext (ih hle (by omega))

end Phrases

/-- A source compiles to a tree exactly if its text says what tokens say that are an expression
with that tree. -/
theorem compile_eq_ok_iff {source : String} {e : Expr} :
    compile source = .ok e ↔
      ∃ ts, Scans source.toList (ts.map Token.content) ∧ Phrase .illegal ts ∧ Parses .or ts e := by
  constructor
  · intro h
    have hrule : Compiles source (.ok e) := h ▸ compiles_compile source
    cases hrule with
    | tree scanned balanced placed unstrayed parses =>
      obtain ⟨body, p, rfl, hinner⟩ := exists_body_of_scan scanned
      have hts : Scanned (body ++ [Token.eof p]) body (Token.eof p) := ⟨rfl, rfl, hinner⟩
      obtain ⟨hleads, _⟩ := hts.compileTokens_of_placed (n := 0) balanced placed
      have hphrase := Phrase.of_leads hts.valued hleads hts.mayEnd
        (nested_of_no_stray balanced unstrayed)
      rw [hts.expressionTokens_eq] at hphrase parses
      exact ⟨body, scans_iff.mpr ⟨body, p, scanned, rfl⟩, hphrase, parses⟩
  · rintro ⟨ts, hscans, hphrase, hparse⟩
    obtain ⟨body, p, hscan, hcontent⟩ := scans_iff.mp hscans
    have hbody := hphrase.of_contents hcontent
    have hts : Scanned (body ++ [Token.eof p]) body (Token.eof p) :=
      ⟨rfl, rfl, fun t ht => ⟨hbody.valued t ht, hbody.unended t ht⟩⟩
    have hnested : Nested (body ++ [Token.eof p]) :=
      hbody.nested.append (nested_singleton nofun nofun)
    have hend : (Kind.illegal.after body).admits .eof = true :=
      (Kind.admits_eof_iff _).mpr ⟨hbody.ends, Kind.after_ne_eof nofun hbody.unended⟩
    have hleads : Kind.illegal.Leads (body ++ [Token.eof p]) :=
      Kind.leads_append.mpr ⟨hbody.leads, hend, trivial⟩
    apply Compiles.compile_eq
    refine .tree hscan hnested.balanced hleads.nowhere_misplaced hnested.nowhere_stray ?_
    rw [hts.expressionTokens_eq]
    exact hparse.of_contents hcontent

section Texts

variable {source : String} {cs ds : List Char} {as bs : List Content} {ts : List Token} {e : Expr}
  {symbol : Symbol} {k : Kind}

theorem seals_parenthesis (tail : List Char) : Seals ('(' :: tail) ∧ Seals (')' :: tail) := by
  constructor <;> rintro c ⟨⟩ <;> decide

theorem Scans.of_blanks (h : Scans cs as) {gap : List Char}
    (blank : ∀ c ∈ gap, Text.isBlank c = true) : Scans (gap ++ cs) as :=
  h.of_dropWhile_eq (List.dropWhile_append_of_pos blank)

theorem Seals.of_blanks (h : Seals cs) {gap : List Char}
    (blank : ∀ c ∈ gap, Text.isBlank c = true) : Seals (gap ++ cs) := by
  cases gap with
  | nil => exact h
  | cons c gap => exact seals_of_isBlank (blank c List.mem_cons_self) (gap ++ cs)

theorem contents_grouped (ts : List Token) : (grouped ts).map Token.content =
    ⟨.openParen, none⟩ :: (ts.map Token.content ++ [⟨.closeParen, none⟩]) := by
  rw [grouped, List.map_cons, List.map_append]
  rfl

/-- A text between parentheses is scanned between them, whatever stands behind. -/
theorem Scans.grouped (h : Scans cs (ts.map Token.content)) (htail : Scans ds bs) :
    Scans ('(' :: (cs ++ ')' :: ds)) ((grouped ts).map Token.content ++ bs) := by
  have hclosed := h.append (htail.single (c := ')') rfl) (seals_parenthesis ds).2
  rw [contents_grouped]
  simpa using hclosed.single (c := '(') rfl

theorem Symbol.isOperation_of_isBinary (h : symbol.isBinary = true) : symbol.IsOperation :=
  ⟨not_isLeaf_of_isBinary h, by rintro rfl; cases h⟩

/-- A parenthesis may open behind every operator. -/
theorem Symbol.admits_openParen (h : symbol.IsOperation) :
    symbol.kind.admits .openParen = true ∧ symbol.kind ≠ .openParen ∧
      symbol.kind ≠ .closeParen := by
  cases symbol with
  | reference | literal => cases h.1
  | group => exact absurd rfl h.2
  | _ => exact ⟨rfl, nofun, nofun⟩

theorem Symbol.exists_joiner? (h : symbol.isBinary = true) :
    ∃ tier next, Tier.joiner? tier symbol.kind = some symbol ∧ tier.tighter? = some next ∧
      Kind.closeParen.admits symbol.kind = true := by
  cases symbol with
  | reference | literal | group | invert | positive | negative => cases h
  | or => exact ⟨.or, _, rfl, rfl, rfl⟩
  | and => exact ⟨.and, _, rfl, rfl, rfl⟩
  | equal | notEqual | greater | less | greaterEqual | lessEqual =>
    exact ⟨.comparison, _, rfl, rfl, rfl⟩
  | plus | minus => exact ⟨.sum, _, rfl, rfl, rfl⟩
  | times | divide | modulo => exact ⟨.product, _, rfl, rfl, rfl⟩

def Expr.parenthesized (e : Expr) : Expr := .operation .group .empty e

theorem Parses.grouped (h : Parses .or ts e) (tier : Tier) :
    Parses tier (grouped ts) e.parenthesized := by
  have hgroup : Parses .primary (Formula.grouped ts) e.parenthesized := .group rfl h rfl
  exact hgroup.loosen (Nat.zero_le _)

theorem Symbol.content_mark (symbol : Symbol) : symbol.kind.mark.content = ⟨symbol.kind, none⟩ :=
  Token.content_of_not_isOperand symbol.kind_not_isOperand

structure ReadsAs (tier : Tier) (cs : List Char) (ts : List Token) (e : Expr) : Prop where
  scans : Scans cs (ts.map Token.content)
  seals : Seals cs
  phrase : ∀ k : Kind, k.admits .openParen = true → Phrase k ts
  parses : Parses tier ts e

theorem ReadsAs.compile_eq {tier : Tier} (h : ReadsAs tier source.toList ts e) :
    compile source = .ok e :=
  compile_eq_ok_iff.mpr ⟨ts, h.scans, h.phrase .illegal rfl, h.parses.loosen tier.rank_le⟩

theorem exists_readsAs_group (h : compile source = .ok e) (tier : Tier) :
    ∃ ts, ReadsAs tier ("(" ++ source ++ ")").toList ts e.parenthesized := by
  obtain ⟨ts, hscans, hphrase, hparse⟩ := compile_eq_ok_iff.mp h
  refine ⟨grouped ts, ?_, ?_, fun k hk => hphrase.grouped hk, hparse.grouped tier⟩
  · simpa using hscans.grouped .nil
  · simpa using (seals_parenthesis _).1

theorem compile_group (h : compile source = .ok e) :
    compile ("(" ++ source ++ ")") = .ok e.parenthesized := by
  obtain ⟨ts, hts⟩ := exists_readsAs_group h .or
  exact hts.compile_eq

/-- An operator joins a group to what it has behind it, whatever blanks stand on its two sides. -/
theorem ReadsAs.exists_join {tier next : Tier} {text : List Char} {us : List Token} {f : Expr}
    (h : ReadsAs tier text us f) (hbinary : symbol.isBinary = true)
    (hoperator : tier.joiner? symbol.kind = some symbol) (hstep : tier.tighter? = some next)
    (first : compile source = .ok e) {gap : List Char}
    (blank : ∀ c ∈ gap, Text.isBlank c = true) :
    ∃ ts, ReadsAs tier
      ('(' :: (source.toList ++ ')' :: (gap ++ (symbol.display.toList ++ (gap ++ text))))) ts
      (.operation symbol e.parenthesized f) := by
  obtain ⟨ts, hscans, hphrase, hparse⟩ := compile_eq_ok_iff.mp first
  have hoperation := Symbol.isOperation_of_isBinary hbinary
  obtain ⟨hmark, _⟩ := Symbol.isMark_kind hoperation
  obtain ⟨hopens, hopen, hclose⟩ := Symbol.admits_openParen hoperation
  obtain ⟨_, _, _, _, hfollows⟩ := Symbol.exists_joiner? hbinary
  refine ⟨grouped ts ++ symbol.kind.mark :: us, ?_, (seals_parenthesis _).1, fun k hk => ?_, ?_⟩
  · have hjoined := (Symbol.scans_display hoperation).append (h.scans.of_blanks blank)
      (h.seals.of_blanks blank)
    simpa [Symbol.content_mark] using hscans.grouped (hjoined.of_blanks blank)
  · apply (hphrase.grouped hk).append
    have hafter : k.after (grouped ts) = .closeParen := by simp [grouped, Kind.mark]
    rw [hafter]
    exact (h.phrase _ hopens).cons_mark hfollows hmark hopen hclose
  · exact .join hstep (hparse.grouped next) hoperator h.parses

theorem compile_binary {other : String} {f : Expr} (first : compile source = .ok e)
    (second : compile other = .ok f) (hbinary : symbol.isBinary = true) :
    compile ("(" ++ source ++ ")" ++ symbol.display ++ "(" ++ other ++ ")") =
      .ok (.operation symbol e.parenthesized f.parenthesized) := by
  obtain ⟨tier, next, hjoiner, hnext, _⟩ := Symbol.exists_joiner? hbinary
  obtain ⟨us, hus⟩ := exists_readsAs_group second tier
  obtain ⟨ts, hts⟩ := hus.exists_join hbinary hjoiner hnext first (List.forall_mem_nil _)
  have htext : ReadsAs tier ("(" ++ source ++ ")" ++ symbol.display ++ "(" ++ other ++ ")").toList
      ts (.operation symbol e.parenthesized f.parenthesized) := by simpa using hts
  exact htext.compile_eq

theorem compile_unary (h : compile source = .ok e)
    (hsymbol : symbol ∈ [Symbol.invert, .negative, .positive]) :
    compile (symbol.display ++ "(" ++ source ++ ")") =
      .ok (.operation symbol .empty e.parenthesized) := by
  obtain ⟨ts, hscans, hphrase, hparse⟩ := compile_eq_ok_iff.mp h
  have hsymbol : symbol.IsOperation ∧ Kind.illegal.admits symbol.kind = true ∧
      Parses .not (symbol.kind.mark :: grouped ts) (.operation symbol .empty e.parenthesized) := by
    simp only [List.mem_cons, List.not_mem_nil, or_false] at hsymbol
    rcases hsymbol with rfl | rfl | rfl
    · exact ⟨⟨rfl, nofun⟩, rfl, .invert rfl (hparse.grouped .not)⟩
    · have hsigned := Parses.signed (t := Kind.minus.mark) .negative rfl (hparse.grouped .unary)
      exact ⟨⟨rfl, nofun⟩, rfl, hsigned.loosen (by decide)⟩
    · have hsigned := Parses.signed (t := Kind.plus.mark) .positive rfl (hparse.grouped .unary)
      exact ⟨⟨rfl, nofun⟩, rfl, hsigned.loosen (by decide)⟩
  obtain ⟨hoperation, hadmits, hunary⟩ := hsymbol
  obtain ⟨hmark, _⟩ := Symbol.isMark_kind hoperation
  obtain ⟨hopens, hopen, hclose⟩ := Symbol.admits_openParen hoperation
  apply compile_eq_ok_iff.mpr
  refine ⟨symbol.kind.mark :: grouped ts, ?_, ?_, hunary.loosen (by decide)⟩
  · have hgroup := hscans.grouped .nil
    have hall := (Symbol.scans_display hoperation).append hgroup (seals_parenthesis _).1
    simpa [Symbol.content_mark] using hall
  · exact (hphrase.grouped hopens).cons_mark hadmits hmark hopen hclose

end Texts

/-- Sources are put together as their texts are: parentheses around a source make a group of its
tree, and every operator joins or takes such groups, whatever the sources are. -/
theorem compile_composes {source other : String} {e f : Expr} (first : compile source = .ok e)
    (second : compile other = .ok f) :
    compile ("(" ++ source ++ ")") = .ok e.parenthesized ∧
      (∀ symbol : Symbol, symbol.isBinary = true →
        compile ("(" ++ source ++ ")" ++ symbol.display ++ "(" ++ other ++ ")") =
          .ok (.operation symbol e.parenthesized f.parenthesized)) ∧
      ∀ symbol ∈ [Symbol.invert, .negative, .positive],
        compile (symbol.display ++ "(" ++ source ++ ")") =
          .ok (.operation symbol .empty e.parenthesized) := by
  refine ⟨compile_group first, ?_, ?_⟩
  · intro symbol hbinary
    exact compile_binary first second hbinary
  · intro symbol hsymbol
    exact compile_unary first hsymbol

example : [Symbol.plus, .minus, .times, .divide, .modulo, .greater, .less, .greaterEqual,
      .lessEqual, .equal, .notEqual, .and, .or].map Symbol.display =
    ["+", "-", "*", "/", "%", ">", "<", ">=", "<=", "==", "!=", "&&", "||"] := rfl

/-- The tree of `-a || !b`. -/
def signOrInversion : Expr :=
  .operation .or (.operation .negative .empty (.reference "a"))
    (.operation .invert .empty (.reference "b"))

/-- The tree of `")" == c`. -/
def quotedParenthesis : Expr := .operation .equal (.literal (.text ")")) (.reference "c")

theorem quotedParenthesis_composed :
    compile "-a || !b" = .ok signOrInversion ∧
      compile "\x22)\x22 == c" = .ok quotedParenthesis ∧
      compile ("(" ++ "-a || !b" ++ ")" ++ "%" ++ "(" ++ "\x22)\x22 == c" ++ ")") =
        .ok (.operation .modulo signOrInversion.parenthesized quotedParenthesis.parenthesized) := by
  have first : compile "-a || !b" = .ok signOrInversion := by decide +kernel
  have second : compile "\x22)\x22 == c" = .ok quotedParenthesis := by decide +kernel
  exact ⟨first, second, (compile_composes first second).2.1 .modulo rfl⟩

end Formula
