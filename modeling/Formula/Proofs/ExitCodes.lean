import Formula.Proofs.MergedBindings
import Formula.Proofs.PrintedResults
import Formula.Proofs.Reporting
import Formula.Proofs.TokenLines

/-! Exit codes. Several things may be wrong with a command line at once, and the first stage that
fails decides what has been printed and how the run ends. The commands agree on every source, since
each goes through the stages of the one before it. -/
namespace Formula.CommandLine

def RunOn (source : String) (command : Command) (said : List Said) (r : Report) : Prop :=
  ∃ filter readFile arguments, Invocation readFile arguments command said source ∧
    run filter readFile arguments = r

structure ReportsTokens (source : String) (r : Report) : Prop where
  prints : ∃ (ts : List Token) (fault : Option ScanError),
    (Lexer.ofString source).items = ts.map .ok ++ fault.toList.map .error ∧
      r.output = String.join (ts.map tokenLine) ∧ ∀ t ∈ ts, IsLine (tokenLine t)
  succeeds : r.exitCode = 0 ↔ ∃ ts, scan source = .ok ts
  fails : r.exitCode = 65 ↔ ∃ e, scan source = .error e

structure ReportsTree (source : String) (r : Report) : Prop where
  prints : ∀ e, compile source = .ok e → r.output = e.display ++ "\n"
  silent : ∀ e, compile source = .error e → r.output = ""
  succeeds : r.exitCode = 0 ↔ ∃ e, compile source = .ok e
  fails : r.exitCode = 65 ↔ ∃ e, compile source = .error e

/-- Without a fault no float is written in the source. -/
def Floatless (source : String) : Prop := ∀ ts, scan source = .ok ts → ∀ t ∈ ts, t.kind ≠ .float

/-- A source comes to a value under what is said, and the value is reported under a category. -/
def ComesTo (said : List Said) (source : String) (v : Value) (c : Category) : Prop :=
  ∃ b e, Merged said b ∧ compile source = .ok e ∧ (e.eval b).failure = none ∧
    (e.eval b).expr.note = ⟨some v, c⟩

/-- How an evaluation of a source ends under what is said. Whatever the source is, an object that is
none comes first. -/
structure ReportsOutcome (said : List Said) (source : String) (r : Report) : Prop where
  binds : GivesNoObject said ∨ ∃ b, Merged said b
  refuses : r.exitCode = 1 ↔ GivesNoObject said
  rejects : r.exitCode = 65 ↔ ¬ GivesNoObject said ∧ ∃ e, compile source = .error e
  fails : ∀ b, Merged said b → (r.exitCode = 70 ↔
    ∃ e, compile source = .ok e ∧ (e.eval b).failure.isSome = true)
  succeeds : ∀ b, Merged said b → (r.exitCode = 0 ↔
    ∃ e, compile source = .ok e ∧ (e.eval b).failure = none)
  prints : ∀ b e, Merged said b → compile source = .ok e → (e.eval b).failure = none →
    r.output = resultLine (.mark .json ∈ said) (e.eval b).expr.note
  silent : r.exitCode ≠ 0 → r.output = ""

/-- What the value of a source is reported as under what is said. As JSON it is read back. -/
structure ReportsValue (said : List Said) (source : String) (r : Report) : Prop
    extends ReportsOutcome said source r where
  comes : r.exitCode = 0 → ∃ v c, ComesTo said source v c
  reads : .mark .json ∈ said → ∀ v c j, ComesTo said source v c → v.ReadAs j →
    Json.parse? r.output = some (.object [("type", .string c.name), ("value", j)])
  numeral : .mark .json ∈ said → ∀ x c, ComesTo said source (.float x) c → x.isFinite = true →
    ∃ (p : Json.NumberParts) (numeral : String), Json.NumberText p numeral.toList ∧
      (p.fraction.isSome ∨ p.exponent.isSome) ∧
      r.output = "\x7b\x22type\x22:\x22" ++ c.name ++ "\x22,\x22value\x22:" ++ numeral ++ "\x7d\n"

/-- What the reports on two sources tell apart: their trees as long as no floats are written in
them, the categories that they come to, and the values that are no floats. -/
structure TellsApart (source other : String) : Prop where
  trees : ∀ said r said' r' e e', RunOn source .parse said r → RunOn other .parse said' r' →
    compile source = .ok e → compile other = .ok e' → Floatless source → Floatless other →
    r.output = r'.output → e = e'
  values : ∀ said r said' r' v c v' c', RunOn source .eval said r → RunOn other .eval said' r' →
    ComesTo said source v c → ComesTo said' other v' c' →
    .mark .json ∉ said → .mark .json ∉ said' → r.output = r'.output →
    c = c' ∧ (v.category ≠ .float → v'.category ≠ .float → v = v')

section Reports

variable {source : String} {command : Command} {said : List Said} {r : Report}

/-- A well-formed command line does what its command does under its settings. -/
theorem RunOn.exists_verbosity (h : RunOn source command said r) :
    Proper said ∧ ∃ verbosity, (command.action (Settings.of said)).run verbosity source = r := by
  obtain ⟨filter, readFile, arguments, invocation, rfl⟩ := h
  obtain ⟨verbosity, hrun⟩ := invocation.run_eq filter
  exact ⟨invocation.proper, verbosity, hrun.symm⟩

theorem reportsTokens_runTokenize (source : String) :
    ReportsTokens source (runTokenize source) := by
  have hitems := items_eq_tokenize source
  have hlines (t : Token) (ht : t ∈ (tokenize source).1) : IsLine (tokenLine t) :=
    isLine_tokenLine ht
  rcases htokens : tokenize source with ⟨ts, fault⟩
  rw [htokens] at hitems hlines
  cases fault with
  | none =>
    have hrun : runTokenize source = .success (String.join (ts.map tokenLine)) [] := by
      rw [runTokenize, htokens]
    have hscan : scan source = .ok ts := by rw [scan, htokens]
    rw [hrun]
    exact ⟨⟨ts, none, hitems, rfl, hlines⟩, by simp [hscan], by simp [hscan]⟩
  | some e =>
    have hscan : scan source = .error e := by rw [scan, htokens]
    have hrun : runTokenize source = ⟨65, String.join (ts.map tokenLine), notices e, [],
        some e.diagnostic⟩ := by
      rw [runTokenize, htokens]
      rfl
    rw [hrun]
    exact ⟨⟨ts, some e, hitems, rfl, hlines⟩, by simp [hscan], by simp [hscan]⟩

theorem reportsTree_runParse (verbosity : Verbosity) (source : String) :
    ReportsTree source (runParse verbosity source) := by
  unfold runParse
  cases hcompile : compile source with
  | error e =>
    exact ⟨by simp [hcompile], fun _ _ => rfl, by simp [hcompile, Report.compileCode],
      by simp [hcompile, Report.compileCode]⟩
  | ok e =>
    refine ⟨?_, by simp [hcompile], by simp [hcompile], by simp [hcompile]⟩
    intro e' he'
    obtain rfl := Except.ok.inj (hcompile.symm.trans he')
    rfl

theorem exists_scan_of_compile {e : Expr} (h : compile source = .ok e) :
    ∃ ts, scan source = .ok ts := by
  unfold compile at h
  split at h
  · cases h
  · next ts hscan => exact ⟨ts, hscan⟩

theorem not_givesNoObject_of_merged {b : Bindings} (h : Merged said b) :
    ¬ GivesNoObject said := by
  rintro ⟨text, given, unread⟩
  obtain ⟨members, pairs, absent | ⟨given', read⟩, -⟩ := h
  · cases given.symm.trans absent
  · cases given.symm.trans given'
    exact unread members read

theorem reportsOutcome_runEval (proper : Proper said) (verbosity : Verbosity) (source : String) :
    ReportsOutcome said source (runEval verbosity (evalSettings said) source) := by
  rcases bindings?_cases proper with ⟨hbindings, hobject⟩ | ⟨b, hbindings, merged⟩
  · have hmerged (b : Bindings) : ¬ Merged said b := fun h => not_givesNoObject_of_merged h hobject
    simp only [runEval, hbindings]
    exact {
      binds := .inl hobject
      refuses := by simp [Report.inputCode, hobject]
      rejects := by simp [Report.inputCode, hobject]
      fails := fun b h => absurd h (hmerged b)
      succeeds := fun b h => absurd h (hmerged b)
      prints := fun b e h => absurd h (hmerged b)
      silent := fun _ => rfl }
  have hobject := not_givesNoObject_of_merged merged
  cases hcompile : compile source with
  | error e =>
    simp only [runEval, hbindings, hcompile]
    exact {
      binds := .inr ⟨b, merged⟩
      refuses := by simp [Report.compileCode, hobject]
      rejects := by simp [Report.compileCode, hobject, hcompile]
      fails := by simp [Report.compileCode, hcompile]
      succeeds := by simp [Report.compileCode, hcompile]
      prints := by simp [hcompile]
      silent := fun _ => rfl }
  | ok e =>
    have heval (b' : Bindings) (h : Merged said b') : e.eval b' = e.eval b :=
      eval_congr (h.find?_eq merged) e
    rcases hresult : e.eval b with ⟨result, failure⟩
    cases failure with
    | some failure =>
      simp only [runEval, hbindings, hcompile, hresult]
      exact {
        binds := .inr ⟨b, merged⟩
        refuses := by simp [Report.evalCode, hobject]
        rejects := by simp [Report.evalCode, hcompile]
        fails := by
          intro b' h
          simp [Report.evalCode, hcompile, heval b' h, hresult]
        succeeds := by
          intro b' h
          simp [Report.evalCode, hcompile, heval b' h, hresult]
        prints := by
          intro b' e' h compiled done
          cases hcompile.symm.trans compiled
          simp [heval b' h, hresult] at done
        silent := fun _ => rfl }
    | none =>
      simp only [runEval, hbindings, hcompile, hresult]
      exact {
        binds := .inr ⟨b, merged⟩
        refuses := by simp [hobject]
        rejects := by simp [hcompile]
        fails := by
          intro b' h
          simp [hcompile, heval b' h, hresult]
        succeeds := by
          intro b' h
          simp [hcompile, heval b' h, hresult]
        prints := by
          intro b' e' h compiled done
          cases hcompile.symm.trans compiled
          rw [heval b' h, hresult]
          rfl
        silent := fun h => absurd rfl h }

theorem ComesTo.output_eq {v : Value} {c : Category} (h : ComesTo said source v c)
    (outcome : ReportsOutcome said source r) :
    r.output = resultLine (.mark .json ∈ said) ⟨some v, c⟩ := by
  obtain ⟨b, e, merged, compiled, done, hnote⟩ := h
  rw [outcome.prints b e merged compiled done, hnote]

theorem exists_reported {e : Expr} {b : Bindings} (compiled : compile source = .ok e)
    (done : (e.eval b).failure = none) : (e.eval b).expr.Reported := by
  obtain ⟨_, _, _, parses⟩ := compile_eq_ok_iff.mp compiled
  exact (parses.reports b).root done parses.isNode

/-- Only a float may be reported under a category that is not its own. -/
theorem ComesTo.category_eq {v : Value} {c : Category} (h : ComesTo said source v c)
    (other : v.category ≠ .float) : c = v.category := by
  obtain ⟨b, e, -, compiled, done, hnote⟩ := h
  have hreported := exists_reported compiled done
  cases hfloat : (e.eval b).expr.isFloatRemainder with
  | true =>
    obtain ⟨x, hx⟩ := hreported.float hfloat
    obtain rfl : v = .float x := Option.some.inj (congrArg Annotation.value (hnote.symm.trans hx))
    exact absurd rfl other
  | false =>
    obtain ⟨w, hw⟩ := hreported.value hfloat
    have hsame := hnote.symm.trans hw
    obtain rfl : v = w := Option.some.inj (congrArg Annotation.value hsame)
    exact congrArg Annotation.category hsame

theorem ReportsOutcome.reportsValue (h : ReportsOutcome said source r) :
    ReportsValue said source r where
  toReportsOutcome := h
  comes hexit := by
    rcases h.binds with hobject | ⟨b, merged⟩
    · rw [h.refuses.mpr hobject] at hexit
      cases hexit
    · obtain ⟨e, compiled, done⟩ := (h.succeeds b merged).mp hexit
      obtain ⟨v, hv⟩ := Option.ne_none_iff_exists'.mp (exists_reported compiled done).present.1
      exact ⟨v, (e.eval b).expr.note.category, b, e, merged, compiled, done, by rw [← hv]⟩
  reads json v c j hcomes hread := by
    rw [hcomes.output_eq h, decide_eq_true json]
    exact parse?_resultLine rfl hread
  numeral json x c hcomes finite := by
    rw [hcomes.output_eq h, decide_eq_true json]
    exact exists_resultLine_float rfl finite

theorem RunOn.reportsTokens (h : RunOn source .tokenize said r) : ReportsTokens source r := by
  obtain ⟨-, verbosity, rfl⟩ := h.exists_verbosity
  exact reportsTokens_runTokenize source

theorem RunOn.reportsTree (h : RunOn source .parse said r) : ReportsTree source r := by
  obtain ⟨-, verbosity, rfl⟩ := h.exists_verbosity
  exact reportsTree_runParse verbosity source

theorem RunOn.reportsValue (h : RunOn source .eval said r) : ReportsValue said source r := by
  obtain ⟨proper, verbosity, rfl⟩ := h.exists_verbosity
  exact (reportsOutcome_runEval proper verbosity source).reportsValue

theorem tellsApart (source other : String) : TellsApart source other where
  trees said r said' r' e e' parses parses' compiled compiled' floatless floatless' alike := by
    rw [parses.reportsTree.prints e compiled, parses'.reportsTree.prints e' compiled'] at alike
    have hends : ClosesTree [] := by simp [ClosesTree]
    have htexts : e.display.toList ++ [] = e'.display.toList ++ [] := by
      have hlines := congrArg String.toList alike
      simpa using hlines
    exact ((legible_of_compile compiled floatless).append_inj
      (legible_of_compile compiled' floatless') hends hends htexts).1
  values said r said' r' v c v' c' evaluates evaluates' comes comes' plain plain' alike := by
    rw [comes.output_eq evaluates.reportsValue.toReportsOutcome,
      comes'.output_eq evaluates'.reportsValue.toReportsOutcome, decide_eq_false plain,
      decide_eq_false plain'] at alike
    obtain ⟨rfl, hdisplay⟩ := resultLine_inj rfl rfl alike
    refine ⟨rfl, fun hv hv' => ?_⟩
    have hcategory := (comes.category_eq hv).symm.trans (comes'.category_eq hv')
    exact Value.eq_of_display hv hcategory hdisplay

/-- Every source can be given to every command. -/
theorem runOn_literally (source : String) (command : Command) (filter : Option String)
    (readFile : String → Option String) :
    RunOn source command [.expression source]
      (run filter readFile [command.name, "--", source]) := by
  have proper : Proper ([] ++ [.expression source]) :=
    proper_append_singleton.mpr ⟨proper_nil, .expression rfl⟩
  have calls : Calls [command.name, "--", source] [] command [.expression source] :=
    .command (.literally [source])
  exact ⟨filter, readFile, _, ⟨⟨[], calls, proper_nil⟩, proper, .expression rfl rfl⟩, rfl⟩

theorem runOn_json (source : String) (filter : Option String)
    (readFile : String → Option String) :
    RunOn source .eval [.mark .json, .expression source]
      (run filter readFile ["eval", "--json", "--", source]) := by
  have proper : Proper ([] ++ [.mark .json] ++ [.expression source]) :=
    proper_append_singleton.mpr ⟨proper_append_singleton.mpr ⟨proper_nil, .json nofun⟩,
      .expression rfl⟩
  have json : SaysOption (some .eval) "--json" [.mark .json] none :=
    .name (show _ = '-' :: '-' :: Flag.json.name.toList by decide) (.mark rfl rfl)
  have calls : Calls ["eval", "--json", "--", source] [] .eval
      [.mark .json, .expression source] := .command (.option json (.literally [source]))
  exact ⟨filter, readFile, _, ⟨⟨[], calls, proper_nil⟩, proper, .expression rfl rfl⟩, rfl⟩

/-- Where nothing is bound there are no bindings. -/
theorem merged_empty (members : values .params said = []) (pairs : values .param said = []) :
    Merged said .empty := by
  refine ⟨[], [], .absent members, by rw [pairs]; exact .nil, ?_, ?_, fun _ _ _ => rfl⟩
  · rintro name j ⟨before, behind, hnil, -⟩
    simp at hnil
  · rintro name j - ⟨before, behind, hnil, -⟩
    simp at hnil

end Reports

/-- The commands agree on every source, and every accepted command line is one of those that they
are promised for. What they print tells trees and values apart. -/
theorem commands_agree (source : String) :
    (∀ readFile arguments, (∃ r, request .none arguments = .ok r ∧
        r.origin.read? readFile = some source) ↔
      ∃ command said, Invocation readFile arguments command said source) ∧
    (∀ said r, RunOn source .tokenize said r → ReportsTokens source r) ∧
    (∀ said r, RunOn source .parse said r → ReportsTree source r) ∧
    (∀ said r, RunOn source .eval said r → ReportsValue said source r) ∧
    (∀ said r said' r', RunOn source .parse said r → RunOn source .tokenize said' r' →
      r.exitCode = 0 → r'.exitCode = 0) ∧
    (∀ said r said' r', RunOn source .eval said r → RunOn source .parse said' r' →
      r.exitCode = 65 → r'.exitCode = 65) ∧
    ∀ other, TellsApart source other := by
  refine ⟨fun _ _ => exists_request_iff, fun _ _ => RunOn.reportsTokens,
    fun _ _ => RunOn.reportsTree, fun _ _ => RunOn.reportsValue, ?_, ?_, tellsApart source⟩
  · intro said r said' r' parses tokenizes hexit
    obtain ⟨e, compiled⟩ := parses.reportsTree.succeeds.mp hexit
    exact tokenizes.reportsTokens.succeeds.mpr (exists_scan_of_compile compiled)
  · intro said r said' r' evaluates parses hexit
    exact parses.reportsTree.fails.mpr (evaluates.reportsValue.rejects.mp hexit).2

/-- A command line with two pairs of one name, which the object between them has as well. -/
def overriddenArguments : List String :=
  ["-v", "eval", "-px=1", "--params", "\x7b\x22x\x22: 5, \x22y\x22: 2\x7d", "x + y", "-px=3"]

def overriddenSum : List Said :=
  [.value .param "x=1", .value .params "\x7b\x22x\x22: 5, \x22y\x22: 2\x7d", .expression "x + y",
    .value .param "x=3"]

theorem overriddenSum_reported :
    Invocation (fun _ => none) overriddenArguments .eval overriddenSum "x + y" ∧
      (∃ r, RunOn "x + y" .eval overriddenSum r ∧ ReportsValue overriddenSum "x + y" r ∧
        r.exitCode = 0 ∧ r.output = "5 (int)\n") ∧
      (∃ r, RunOn "-7" .eval [.mark .json, .expression "-7"] r ∧
        r.output = "\x7b\x22type\x22:\x22int\x22,\x22value\x22:-7\x7d\n" ∧
        Json.parse? r.output = some (.object [("type", .string "int"),
          ("value", .number (.negative (-7)))])) ∧
      (run none (fun _ => none) ["tokenize", "--", "x + y"]).exitCode = 0 ∧
      (run none (fun _ => none) ["tokenize", "--", "x + y"]).output =
        "IDENTIFIER x @0\nPLUS + null @2\nIDENTIFIER y @4\nEOF  null\n" ∧
      (run none (fun _ => none) ["parse", "--", "-(x + 1.50) * 2 == \x27a\x27"]).output =
        "(== (* (- (group (+ x 1.5))) 2) \x22a\x22)\n" ∧
      (run none (fun _ => none) ["eval", "--", "7 / 2"]).output = "3.5 (float)\n" ∧
      (run none (fun _ => none) ["eval", "--json", "--", "7 / 2"]).output =
        "\x7b\x22type\x22:\x22float\x22,\x22value\x22:3.5\x7d\n" ∧
      (run none (fun _ => none) ["parse", "--", "x +"]).exitCode = 65 := by
  have verbose : SaysOption none "-v" [.mark .verbose] none :=
    .letters (show _ = '-' :: ['v'] by decide) (by decide) (.mark rfl rfl rfl .done)
  have one : SaysOption (some .eval) "-px=1" [.value .param "x=1"] none :=
    .letters (show _ = '-' :: 'p' :: "x=1".toList by decide) (by decide)
      (.value rfl rfl rfl (by decide))
  have three : SaysOption (some .eval) "-px=3" [.value .param "x=3"] none :=
    .letters (show _ = '-' :: 'p' :: "x=3".toList by decide) (by decide)
      (.value rfl rfl rfl (by decide))
  have object : SaysOption (some .eval) "--params" [] (some .params) :=
    .name (show _ = '-' :: '-' :: Flag.params.name.toList by decide) (.waiting rfl rfl)
  have calls : Calls overriddenArguments [.mark .verbose] .eval overriddenSum :=
    .option verbose (.command (.option one (.value object (by decide +kernel)
      (.expression (by decide) (.option three .done)))))
  have proper (said : List Said) (h : (said.foldlM Settings.take .none).toBool = true) :
      Proper said := by
    cases taken : said.foldlM Settings.take .none with
    | error stop => simp [taken, Except.toBool] at h
    | ok s => exact (Settings.foldlM_take_eq_ok_iff.mp taken).1
  have invocation : Invocation (fun _ => none) overriddenArguments .eval overriddenSum "x + y" :=
    ⟨⟨_, calls, proper _ (by decide +kernel)⟩, proper _ (by decide +kernel), .expression rfl rfl⟩
  have hrun : RunOn "x + y" .eval overriddenSum (run none (fun _ => none) overriddenArguments) :=
    ⟨none, _, _, invocation, rfl⟩
  have comes : ComesTo [.mark .json, .expression "-7"] "-7" (.integer (-7)) .integer := by
    have compiled : compile "-7" = .ok (.operation .negative .empty (.literal (.integer 7))) := by
      decide +kernel
    exact ⟨.empty, _, merged_empty rfl rfl, compiled, by decide +kernel, by decide +kernel⟩
  have sum := (commands_agree "x + y").2.2.2
  have seven := (commands_agree "-7").2.2.2.1 _ _ (runOn_json "-7" none fun _ => none)
  have unfinished := (commands_agree "x +").2.2.2.2.2.1
  exact ⟨invocation, ⟨_, hrun, sum.1 _ _ hrun, by decide +kernel, by decide +kernel⟩,
    ⟨_, runOn_json "-7" none fun _ => none, by decide +kernel,
      seven.reads (by decide) _ _ _ comes (.negative (by decide))⟩,
    sum.2.1 _ _ _ _ (runOn_literally _ .parse none fun _ => none)
      (runOn_literally _ .tokenize none fun _ => none) (by decide +kernel),
    by decide +kernel, by decide +kernel, by decide +kernel, by decide +kernel,
    unfinished _ _ _ _ (runOn_literally _ .eval none fun _ => none)
      (runOn_literally _ .parse none fun _ => none) (by decide +kernel)⟩

end Formula.CommandLine
