import Formula.Proofs.EscapeDigits
import Formula.Proofs.Progress
import Formula.Proofs.Quotation

/-! Where reports on escapes point. A string is read up to its first escape that is refused, and the
report begins at that backslash. It covers the escape as far as it is to blame, and one character
more if the escape is complete and no character has its code. -/
namespace Formula

open Spelling

theorem Escape.Refuses.text_eq {cs own behind : List Char} {problem : EscapeProblem}
    (h : Refuses cs problem own behind) : own ++ behind = '\\' :: cs := by
  cases h with
  | bare | unknown => rfl
  | @digits cs opening ds own _ f _ announced refused =>
    have hannounced : opening ++ ds = cs := by cases announced <;> rfl
    have hrefused : own ++ behind = ds := by cases refused <;> simp
    rw [List.append_assoc, hrefused, List.cons_append, hannounced]

/-- The overrun of a refused escape is in front of what is behind it. -/
theorem EscapeProblem.overrun_append_drop (problem : EscapeProblem) (behind : List Char) :
    problem.overrun behind ++ behind.drop (problem.overrun behind).length = behind := by
  cases problem with
  | invalidCode => cases behind <;> rfl
  | unknown | unterminated | illegalDigit => rfl

/-- Only codes that no character has are marked too far, and only where something is behind. -/
theorem EscapeProblem.overrun_eq_nil_iff {problem : EscapeProblem} {behind : List Char} :
    problem.overrun behind = [] ↔ ∀ code, problem = .invalidCode code → behind = [] := by
  cases problem with
  | invalidCode => simp [overrun, List.take_eq_nil_iff]
  | unknown | unterminated | illegalDigit => simp [overrun]

namespace Lexeme

variable {quote c : Char} {cs own behind : List Char} {problem : EscapeProblem}
  {f : Fault ScanProblem}

def escapeFault (front : List Char) (problem : EscapeProblem) (own behind : List Char) :
    Fault ScanProblem :=
  ⟨.badEscape problem, front, own ++ problem.overrun behind, front ++ problem.taken own⟩

theorem behind_escapeFault (text front : List Char) :
    (escapeFault front problem own behind).behind text =
      escapeFault (text ++ front) problem own behind := by
  simp [escapeFault, Fault.behind]

theorem body_of_refuses (hquote : quote ≠ '\\') (h : Escape.Refuses cs problem own behind)
    (ss : List (Spelling quote)) :
    body quote (texts ss ++ '\\' :: cs) =
      .error (some (escapeFault (texts ss) problem own behind)) := by
  induction ss with
  | nil =>
    rw [texts_nil, List.nil_append, body, if_neg hquote.symm, if_pos rfl]
    split
    · next g hdecode =>
      obtain rfl := Except.error.inj (h.decode_eq.symm.trans hdecode)
      rfl
    · next e hdecode => cases h.decode_eq.symm.trans hdecode
  | cons s ss ih =>
    obtain ⟨text, d, hspells⟩ := s
    rw [texts_cons, List.append_assoc]
    cases hspells with
    | plain unquoted unescaped =>
      rw [List.singleton_append, body, if_neg unquoted, if_neg unescaped, ih]
      simp [behind_escapeFault]
    | escape escapes =>
      obtain ⟨es, rfl⟩ := escapes.exists_cons
      have hdecode : Escape.decode (es ++ (texts ss ++ '\\' :: cs)) =
          .ok ⟨d, '\\' :: es, texts ss ++ '\\' :: cs⟩ :=
        Escape.decode_eq_ok_iff.mpr ⟨escapes, rfl⟩
      rw [List.cons_append, body, if_neg hquote.symm, if_pos rfl]
      split
      · next g hother => cases hdecode.symm.trans hother
      · next e hother =>
        obtain rfl := Except.ok.inj (hdecode.symm.trans hother)
        simp [ih, behind_escapeFault]

/-- A string that is refused, but not for want of a quote, is refused at an escape behind its
spellings. -/
theorem exists_refuses_of_body (h : body quote cs = .error (some f)) :
    ∃ (ss : List (Spelling quote)) (rest : List Char) (problem : EscapeProblem)
      (own behind : List Char), cs = texts ss ++ '\\' :: rest ∧
        Escape.Refuses rest problem own behind ∧ f = escapeFault (texts ss) problem own behind := by
  fun_induction body quote cs generalizing f with
  | case1 => cases h
  | case2 => cases h
  | case3 cs g hdecode =>
    obtain rfl := Option.some.inj (Except.error.inj h)
    obtain ⟨own, behind, hrefuses, hfault⟩ := Escape.exists_refuses hdecode
    refine ⟨[], cs, g.problem, own, behind, rfl, hrefuses, ?_⟩
    rw [hfault]
    rfl
  | case4 => cases h
  | case5 cs e hdecode _ g hbody _ ih =>
    cases g with
    | none => cases h
    | some g =>
      obtain rfl := Option.some.inj (Except.error.inj h)
      obtain ⟨ss, rest, problem, own, behind, hcs, hrefuses, rfl⟩ := ih hbody
      obtain ⟨hescapes, hread⟩ := Escape.decode_eq_ok_iff.mp hdecode
      refine ⟨⟨e.text, e.char, .escape hescapes⟩ :: ss, rest, problem, own, behind, ?_, hrefuses,
        behind_escapeFault _ _⟩
      rw [← hread, hcs, texts_cons, List.append_assoc]
  | case6 => cases h
  | case7 c cs unquoted unescaped g hbody ih =>
    cases g with
    | none => cases h
    | some g =>
      obtain rfl := Option.some.inj (Except.error.inj h)
      obtain ⟨ss, rest, problem, own, behind, hcs, hrefuses, rfl⟩ := ih hbody
      refine ⟨⟨[c], c, .plain unquoted unescaped⟩ :: ss, rest, problem, own, behind, ?_, hrefuses,
        behind_escapeFault _ _⟩
      rw [hcs]
      rfl

/-- Escapes are refused in quoted strings and nowhere else. -/
theorem string_of_badEscape (hscan : scan c cs = .error f)
    (hproblem : f.problem = .badEscape problem) :
    (c = '\x22' ∨ c = '\x27') ∧ string c cs = .error f := by
  unfold scan at hscan
  split at hscan
  · cases hscan
  · split at hscan <;> cases hscan
  · split_ifs at hscan
    cases hscan
    cases hproblem
  · split_ifs at hscan with hquote
    · exact ⟨hquote, hscan⟩
    · simp only [rawString] at hscan
      split at hscan <;> cases hscan
      cases hproblem
    · simp only [number] at hscan
      split at hscan <;> cases hscan
      cases hproblem
    · cases hscan
      cases hproblem

theorem exists_refuses_of_string (hstring : string quote cs = .error f)
    (hproblem : f.problem = .badEscape problem) :
    ∃ (ss : List (Spelling quote)) (rest own behind : List Char), cs = texts ss ++ '\\' :: rest ∧
      Escape.Refuses rest problem own behind ∧
        f = escapeFault (quote :: texts ss) problem own behind := by
  unfold string at hstring
  split at hstring
  · cases hstring
  · cases hstring
    cases hproblem
  · next g hbody =>
    obtain ⟨ss, rest, p, own, behind, hcs, hrefuses, rfl⟩ := exists_refuses_of_body hbody
    obtain rfl := Except.error.inj hstring
    obtain rfl : p = problem := ScanProblem.badEscape.inj hproblem
    exact ⟨ss, rest, own, behind, hcs, hrefuses, rfl⟩

theorem scan_of_refuses (hquote : c = '\x22' ∨ c = '\x27')
    (h : Escape.Refuses cs problem own behind) (ss : List (Spelling c)) :
    scan c (texts ss ++ '\\' :: cs) = .error (escapeFault (c :: texts ss) problem own behind) := by
  have hscan : scan c (texts ss ++ '\\' :: cs) = string c (texts ss ++ '\\' :: cs) := by
    rcases hquote with rfl | rfl <;> rfl
  rw [hscan, string, body_of_refuses (quote_ne_backslash hquote) h]
  rfl

end Lexeme

namespace Lexer

/-- A scanner in front of a quoted string whose spellings lead to an escape that is refused. -/
structure MeetsEscape (l : Lexer) (quote : Char) (ss : List (Spelling quote))
    (problem : EscapeProblem) (own behind : List Char) : Prop where
  unfinished : l.done = false
  quotes : quote = '\x22' ∨ quote = '\x27'
  refused : ∃ cs, l.rest.dropWhile Text.isBlank = quote :: (texts ss ++ '\\' :: cs) ∧
    Escape.Refuses cs problem own behind

variable {l : Lexer} {e : ScanError}

theorem call_eq_error_iff : l.call.1 = some (.error e) ↔ l.done = false ∧
    ∃ c cs f, l.rest.dropWhile Text.isBlank = c :: cs ∧ Lexeme.scan c cs = .error f ∧
      e = f.at l.tokenPlace := by
  unfold call next?
  cases hdone : l.done with
  | true => simp
  | false =>
    cases hrest : l.rest.dropWhile Text.isBlank with
    | nil => simp
    | cons c cs => cases hscan : Lexeme.scan c cs <;> simp [hscan, eq_comm]

theorem MeetsEscape.of_call {problem : EscapeProblem} (hcall : l.call.1 = some (.error e))
    (hproblem : e.problem = .badEscape problem) :
    ∃ quote ss own behind, l.MeetsEscape quote ss problem own behind := by
  obtain ⟨unfinished, c, cs, f, hrest, hscan, rfl⟩ := call_eq_error_iff.mp hcall
  obtain ⟨hquote, hstring⟩ := Lexeme.string_of_badEscape hscan hproblem
  obtain ⟨ss, rest, own, behind, rfl, hrefuses, -⟩ :=
    Lexeme.exists_refuses_of_string hstring hproblem
  exact ⟨c, ss, own, behind, unfinished, hquote, rest, hrest, hrefuses⟩

/-- The report on an escape begins at its backslash, and what it covers of the source is the escape
as far as it is to blame, with its overrun. -/
theorem MeetsEscape.exists_cuts {source : List Char} {quote : Char} {ss : List (Spelling quote)}
    {problem : EscapeProblem} {own behind : List Char} (stands : l.StandsIn source)
    (h : l.MeetsEscape quote ss problem own behind) :
    ∃ front span, source = front ++ quote :: texts ss ++ own ++ behind ∧
      l.call.1 = some (.error ⟨.badEscape problem, span⟩) ∧
      span.Cuts source (front ++ quote :: texts ss) (own ++ problem.overrun behind)
        (behind.drop (problem.overrun behind).length) := by
  obtain ⟨unfinished, hquote, cs, hrest, hrefuses⟩ := h
  obtain ⟨front, hsource, hplace⟩ := stands.exists_front
  have hscan := Lexeme.scan_of_refuses hquote hrefuses ss
  have hparts : source = front ++ quote :: texts ss ++ own ++ behind := by
    rw [hsource, hrest, ← hrefuses.text_eq]
    simp
  have hcuts := Span.cuts_at (front ++ quote :: texts ss) (own ++ problem.overrun behind)
    (behind.drop (problem.overrun behind).length)
  rw [List.append_assoc _ _ (behind.drop _), List.append_assoc own,
    problem.overrun_append_drop, ← List.append_assoc, ← hparts, Place.advance_append,
    ← hplace] at hcuts
  exact ⟨front, _, hparts,
    call_eq_error_iff.mpr ⟨unfinished, _, _, _, hrest, hscan, rfl⟩, hcuts⟩

end Lexer

/-- A quoted string fails inside an escape exactly where its spellings lead to one that is refused.
The label of the report begins at the backslash of that escape and covers the escape as far as it is
to blame and nothing else; but if no character has its code, the label covers the character behind
the last digit as well, where there is one. -/
theorem escape_faults_marked (source : String) (calls : Nat) :
    (∀ e problem, ((Lexer.ofString source).after calls).call.1 = some (.error e) →
      e.problem = .badEscape problem → ∃ quote ss own behind,
        ((Lexer.ofString source).after calls).MeetsEscape quote ss problem own behind) ∧
    ∀ quote ss problem own behind,
      ((Lexer.ofString source).after calls).MeetsEscape quote ss problem own behind →
      ∃ front span, source.toList = front ++ quote :: texts ss ++ own ++ behind ∧
        ((Lexer.ofString source).after calls).call.1 =
          some (.error ⟨.badEscape problem, span⟩) ∧
        scan source = .error ⟨.badEscape problem, span⟩ ∧
        span.Cuts source.toList (front ++ quote :: texts ss) (own ++ problem.overrun behind)
          (behind.drop (problem.overrun behind).length) ∧
        (span.Cuts source.toList (front ++ quote :: texts ss) own behind ↔
          ∀ code, problem = .invalidCode code → behind = []) := by
  refine ⟨fun e problem => Lexer.MeetsEscape.of_call, fun quote ss problem own behind h => ?_⟩
  have hstands := (Lexer.standsIn_ofString source).after calls
  obtain ⟨front, span, hsource, hcall, hcuts⟩ := h.exists_cuts hstands
  refine ⟨front, span, hsource, hcall, Lexer.scan_eq_error_of_call hcall, hcuts, ?_⟩
  rw [← EscapeProblem.overrun_eq_nil_iff]
  constructor
  · intro hown
    simpa using (hown.unique hcuts).2.1
  · intro hnone
    simpa [hnone] using hcuts

/-- Three octal digits that stand for more than a byte: the label covers the closing quote. -/
theorem largeOctal_overmarked :
    (Lexer.ofString "\x22\\777\x22").MeetsEscape '\x22' [] (.invalidCode 511)
        ['\\', '7', '7', '7'] ['\x22'] ∧
      scan "\x22\\777\x22" = .error ⟨.badEscape (.invalidCode 511), ⟨1, 5⟩⟩ ∧
      (Span.mk 1 5).Cuts "\x22\\777\x22".toList ['\x22'] ['\\', '7', '7', '7', '\x22'] [] ∧
      ¬ (Span.mk 1 5).Cuts "\x22\\777\x22".toList ['\x22'] ['\\', '7', '7', '7'] ['\x22'] := by
  have hrefuses : Escape.Refuses "777\x22".toList (.invalidCode 511) ['\\', '7', '7', '7']
      ['\x22'] := by
    have hinBase : InBase 8 ['7', '7', '7'] := List.all_eq_true.mp (by decide)
    have hrefused : EscapeFamily.Refuses ⟨3, 8, 255⟩ (['7', '7', '7'] ++ ['\x22'])
        (.invalidCode 511) ['7', '7', '7'] ['\x22'] :=
      .outside rfl hinBase (by decide) (.inl (by decide))
    exact .digits (.octal (by decide)) hrefused
  refine ⟨⟨rfl, .inl rfl, "777\x22".toList, rfl, hrefuses⟩, by decide +kernel,
    ⟨rfl, rfl, rfl⟩, fun h => ?_⟩
  cases h.length

end Formula
