import Formula.Proofs.ScanningRules

/-! Quoted strings as sequences of spellings. A string is read exactly where spellings stand between
two quotes, and in one way only; a raw string is read exactly up to the next quote of its own. -/
namespace Formula

@[ext] structure Spelling (quote : Char) where
  text : List Char
  char : Char
  spells : Spells quote text char

namespace Spelling

variable {quote : Char}

def texts (ss : List (Spelling quote)) : List Char := ss.flatMap text

def chars (ss : List (Spelling quote)) : List Char := ss.map char

@[simp] theorem texts_nil : texts ([] : List (Spelling quote)) = [] := rfl

@[simp] theorem texts_cons (s : Spelling quote) (ss : List (Spelling quote)) :
    texts (s :: ss) = s.text ++ texts ss := rfl

@[simp] theorem chars_nil : chars ([] : List (Spelling quote)) = [] := rfl

@[simp] theorem chars_cons (s : Spelling quote) (ss : List (Spelling quote)) :
    chars (s :: ss) = s.char :: chars ss := rfl

/-- A text is cut into spellings and a closing quote in one way at most. -/
theorem texts_unique (hquote : quote ≠ '\\') {ss other : List (Spelling quote)}
    {rest tail : List Char} (h : texts ss ++ quote :: rest = texts other ++ quote :: tail) :
    ss = other ∧ rest = tail := by
  induction ss generalizing other with
  | nil =>
    cases other with
    | nil => simpa using h
    | cons s other =>
      obtain ⟨first, cs, htext, hfirst⟩ := s.spells.exists_cons hquote
      rw [texts_cons, htext] at h
      exact absurd (List.cons.inj h).1.symm hfirst
  | cons s ss ih =>
    cases other with
    | nil =>
      obtain ⟨first, cs, htext, hfirst⟩ := s.spells.exists_cons hquote
      rw [texts_cons, htext] at h
      exact absurd (List.cons.inj h).1 hfirst
    | cons s' other =>
      rw [texts_cons, texts_cons, List.append_assoc, List.append_assoc] at h
      obtain ⟨htext, hchar, hrest⟩ := s.spells.unique s'.spells h
      obtain ⟨rfl, rfl⟩ := ih hrest
      exact ⟨congrArg (· :: ss) (Spelling.ext htext hchar), rfl⟩

/-- All characters can be spelled between quotes. -/
theorem exists_chars_eq (hquote : quote = '\x22' ∨ quote = '\x27') (cs : List Char) :
    ∃ ss : List (Spelling quote), chars ss = cs := by
  induction cs with
  | nil => exact ⟨[], rfl⟩
  | cons c cs ih =>
    obtain ⟨ss, rfl⟩ := ih
    obtain ⟨text, htext⟩ := exists_spells quote c hquote
    exact ⟨⟨text, c, htext⟩ :: ss, rfl⟩

end Spelling

namespace Lexeme

open Spelling

variable {quote : Char} {cs : List Char} {x : Lexeme}

def quoted (quote : Char) (inside decoded rest : List Char) : Lexeme :=
  ⟨.string, some (.text (String.ofList decoded)), quote :: (inside ++ [quote]), rest⟩

/-- Spellings in front of a quote are read as what they stand for. -/
theorem body_texts (hquote : quote ≠ '\\') (ss : List (Spelling quote)) (rest : List Char) :
    body quote (texts ss ++ quote :: rest) = .ok ⟨chars ss, texts ss ++ [quote], rest⟩ := by
  induction ss with
  | nil => rw [texts_nil, List.nil_append, body, if_pos rfl]; rfl
  | cons s ss ih =>
    obtain ⟨text, c, hspells⟩ := s
    rw [texts_cons, List.append_assoc]
    cases hspells with
    | plain unquoted unescaped =>
      rw [List.singleton_append, body, if_neg unquoted, if_neg unescaped, ih]
      rfl
    | escape escapes =>
      obtain ⟨cs, rfl⟩ := escapes.exists_cons
      have hdecode : Escape.decode (cs ++ (texts ss ++ quote :: rest)) =
          .ok ⟨c, '\\' :: cs, texts ss ++ quote :: rest⟩ :=
        Escape.decode_eq_ok_iff.mpr ⟨escapes, rfl⟩
      refine (body_of_decode hquote.symm hdecode ih).trans ?_
      simp [Body.push]

theorem exists_texts_of_body {b : Body} (h : body quote cs = .ok b) :
    ∃ ss : List (Spelling quote), cs = texts ss ++ quote :: b.rest ∧
      b = ⟨chars ss, texts ss ++ [quote], b.rest⟩ := by
  fun_induction body quote cs generalizing b with
  | case1 => cases h
  | case2 cs =>
    obtain rfl := Except.ok.inj h
    exact ⟨[], rfl, rfl⟩
  | case3 => cases h
  | case4 cs e he hle b' hb' hq ih =>
    obtain rfl := Except.ok.inj h
    obtain ⟨hescapes, hread⟩ := Escape.decode_eq_ok_iff.mp he
    obtain ⟨ss, hcs, hb⟩ := ih hb'
    refine ⟨⟨e.text, e.char, .escape hescapes⟩ :: ss, ?_, ?_⟩
    · rw [← hread, hcs, texts_cons, List.append_assoc]
      rfl
    · rw [hb]
      simp [Body.push]
  | case5 => cases h
  | case6 c cs hq hc b' hb' ih =>
    obtain rfl := Except.ok.inj h
    obtain ⟨ss, hcs, hb⟩ := ih hb'
    refine ⟨⟨[c], c, .plain hq hc⟩ :: ss, ?_, ?_⟩
    · rw [hcs]
      rfl
    · rw [hb]
      rfl
  | case7 => cases h

/-- A string is read where spellings and a closing quote stand, as what the spellings stand for. -/
theorem string_eq_ok_iff (hquote : quote ≠ '\\') : string quote cs = .ok x ↔
    ∃ (ss : List (Spelling quote)) (rest : List Char), cs = texts ss ++ quote :: rest ∧
      x = quoted quote (texts ss) (chars ss) rest := by
  constructor
  · intro h
    unfold string at h
    split at h
    · next b hb =>
      obtain ⟨ss, hcs, hbody⟩ := exists_texts_of_body hb
      obtain rfl := Except.ok.inj h
      refine ⟨ss, b.rest, hcs, ?_⟩
      rw [hbody]
      rfl
    · cases h
    · cases h
  · rintro ⟨ss, rest, rfl, rfl⟩
    rw [string, body_texts hquote]
    rfl

/-- A raw string is read up to the next quote of its own, as it stands. -/
theorem rawString_eq_ok_iff : rawString cs = .ok x ↔
    ∃ text rest, cs = text ++ rawQuote :: rest ∧ rawQuote ∉ text ∧
      x = quoted rawQuote text text rest := by
  constructor
  · intro h
    simp only [rawString] at h
    split at h
    · cases h
    · next c rest hrest =>
      have hstop : c = rawQuote := by
        have hhead := List.head?_dropWhile_not (· ≠ rawQuote) cs
        rw [hrest] at hhead
        simpa using hhead
      have hsum := List.takeWhile_append_dropWhile (p := (· ≠ rawQuote)) (l := cs)
      rw [hrest, hstop] at hsum
      obtain rfl := Except.ok.inj h
      refine ⟨_, rest, hsum.symm, fun hmem => ?_, by rw [hstop]; rfl⟩
      simpa using List.mem_takeWhile_imp hmem
  · rintro ⟨text, rest, rfl, hfree, rfl⟩
    have hfront : ∀ d ∈ text, decide (d ≠ rawQuote) = true := by
      intro d hd
      simpa using fun heq : d = rawQuote => hfree (heq ▸ hd)
    obtain ⟨htake, hdrop⟩ :=
      takeWhile_append_cons (p := (· ≠ rawQuote)) hfront (c := rawQuote) (by simp) rest
    simp only [rawString, htake, hdrop]
    rfl

end Lexeme

namespace Lexer

/-- What scanning comes to at a lexeme: its token, and the scanner behind it. -/
def stepOver (p : Place) (x : Lexeme) : Except ScanError Token × Lexer :=
  (.ok (x.at p), ⟨p.advance x.text, x.rest, false⟩)

variable {p : Place} {c : Char} {cs : List Char} {t : Token} {l : Lexer}

/-- Where no blanks have to be skipped, the scanner steps over the lexeme that stands there. -/
theorem next?_eq_ok_iff (starts : Text.isBlank c = false) :
    (Lexer.mk p (c :: cs) false).next? = some (.ok t, l) ↔
      ∃ x, Lexeme.scan c cs = .ok x ∧ (.ok t, l) = stepOver p x := by
  cases hscan : Lexeme.scan c cs with
  | error f =>
    have hnext := next?_of_error (p := p) (List.forall_mem_nil _) starts hscan
    rw [List.nil_append] at hnext
    simp [hnext]
  | ok x =>
    have hnext := next?_of_ok (p := p) (List.forall_mem_nil _) hscan
    rw [List.nil_append, Place.advance_nil] at hnext
    simp [hnext, stepOver, eq_comm]

end Lexer

section Scanner

open Spelling Lexeme

variable {quote : Char} {p : Place} {cs : List Char} {t : Token} {l : Lexer}

theorem next?_string_iff (hquote : quote = '\x22' ∨ quote = '\x27') :
    (Lexer.mk p (quote :: cs) false).next? = some (.ok t, l) ↔
      ∃ (ss : List (Spelling quote)) (rest : List Char), cs = texts ss ++ quote :: rest ∧
        (.ok t, l) = Lexer.stepOver p (quoted quote (texts ss) (chars ss) rest) := by
  have hstarts : Text.isBlank quote = false := by
    rcases hquote with rfl | rfl <;> decide
  have hscan : Lexeme.scan quote cs = string quote cs := by
    rcases hquote with rfl | rfl <;> rfl
  simp only [Lexer.next?_eq_ok_iff hstarts, hscan, string_eq_ok_iff (quote_ne_backslash hquote)]
  constructor
  · rintro ⟨x, ⟨ss, rest, hcs, rfl⟩, hstep⟩
    exact ⟨ss, rest, hcs, hstep⟩
  · rintro ⟨ss, rest, hcs, hstep⟩
    exact ⟨_, ⟨ss, rest, hcs, rfl⟩, hstep⟩

theorem next?_rawString_iff :
    (Lexer.mk p (rawQuote :: cs) false).next? = some (.ok t, l) ↔
      ∃ text rest, cs = text ++ rawQuote :: rest ∧ rawQuote ∉ text ∧
        (.ok t, l) = Lexer.stepOver p (quoted rawQuote text text rest) := by
  have hstarts : Text.isBlank rawQuote = false := by decide
  have hscan : Lexeme.scan rawQuote cs = rawString cs := rfl
  simp only [Lexer.next?_eq_ok_iff hstarts, hscan, rawString_eq_ok_iff]
  constructor
  · rintro ⟨x, ⟨text, rest, hcs, hfree, rfl⟩, hstep⟩
    exact ⟨text, rest, hcs, hfree, hstep⟩
  · rintro ⟨text, rest, hcs, hfree, hstep⟩
    exact ⟨_, ⟨text, rest, hcs, hfree, rfl⟩, hstep⟩

/-- Between quotes of either kind a string is read exactly where spellings stand, as the characters
they stand for, in one way only, and all characters can be spelled. Between raw quotes a string is
read as it stands, up to the next of them. -/
theorem quoted_iff_spelled (quote : Char) (hquote : quote = '\x22' ∨ quote = '\x27') :
    (∀ p cs t l, (Lexer.mk p (quote :: cs) false).next? = some (.ok t, l) ↔
        ∃ (ss : List (Spelling quote)) (rest : List Char), cs = texts ss ++ quote :: rest ∧
          (.ok t, l) = Lexer.stepOver p (quoted quote (texts ss) (chars ss) rest)) ∧
      (∀ (ss other : List (Spelling quote)) (rest tail : List Char),
        texts ss ++ quote :: rest = texts other ++ quote :: tail → ss = other ∧ rest = tail) ∧
      (∀ cs : List Char, ∃ ss : List (Spelling quote), chars ss = cs) ∧
      ∀ p cs,
        (∀ t l, (Lexer.mk p (rawQuote :: cs) false).next? = some (.ok t, l) ↔
          ∃ text rest, cs = text ++ rawQuote :: rest ∧ rawQuote ∉ text ∧
            (.ok t, l) = Lexer.stepOver p (quoted rawQuote text text rest)) ∧
        ((∃ t l, (Lexer.mk p (rawQuote :: cs) false).next? = some (.ok t, l)) ↔
          rawQuote ∈ cs) := by
  refine ⟨fun p cs t l => next?_string_iff hquote,
    fun ss other rest tail => texts_unique (quote_ne_backslash hquote),
    exists_chars_eq hquote, fun p cs => ⟨fun t l => next?_rawString_iff, ?_⟩⟩
  simp only [next?_rawString_iff]
  constructor
  · rintro ⟨t, l, text, rest, rfl, _⟩
    simp
  · intro hmem
    obtain ⟨text, rest, hcs, hfree⟩ := List.eq_append_cons_of_mem hmem
    exact ⟨_, _, text, rest, hcs, hfree, rfl⟩

/-- The mark of the other kind as it is, the quote as an escape, an octal escape in front of a
digit, and an escape of eight digits. -/
def mixedSpellings : List (Spelling '\x27') :=
  [⟨['\x22'], '\x22', .plain (by decide) (by decide)⟩,
    ⟨['\\', '\x27'], '\x27', .escape (.simple (by decide))⟩,
    ⟨['\\', '1', '0', '1'], 'A', .escape (.octal (by decide) (by decide))⟩,
    ⟨['7'], '7', .plain (by decide) (by decide)⟩,
    ⟨['\\', 'U', '0', '0', '0', '1', 'f', '6', '0', '0'], '😀',
      .escape (.hex (show ('U', 8) ∈ hexEscapes by decide) (by decide))⟩]

theorem mixedSpellings_read : ('\x27' = '\x22' ∨ '\x27' = '\x27') ∧
    (Lexer.ofString "'\x22\\'\\1017\\U0001f600' + 1").next? =
      some (.ok ⟨.string, some (.text "\x22'A7😀"), 0, ⟨0, 20⟩⟩,
        ⟨⟨20, 20⟩, " + 1".toList, false⟩) := by
  have hquote : '\x27' = '\x22' ∨ '\x27' = '\x27' := .inr rfl
  have hread := ((quoted_iff_spelled '\x27' hquote).1 .start
    (texts mixedSpellings ++ '\x27' :: " + 1".toList) _ _).mpr
      ⟨mixedSpellings, " + 1".toList, rfl, rfl⟩
  exact ⟨hquote, hread⟩

end Scanner
end Formula
