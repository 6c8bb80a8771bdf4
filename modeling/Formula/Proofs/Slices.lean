import Formula.Proofs.ScannedTokens

/-! Stretches of a source in bytes, and the text that they cover. The tokens and the faults that a
source is scanned into cover what they were scanned from. -/
namespace Formula

/-- A stretch that lies in a text, with both ends between code points: what is in front of it, the
text it covers, and what is behind it. -/
structure Span.Cuts (s : Span) (source front text back : List Char) : Prop where
  parts : source = front ++ text ++ back
  offset : s.offset = byteLength front
  length : s.length = byteLength text

def Span.Addresses (s : Span) (source : List Char) : Prop :=
  ∃ front text back, s.Cuts source front text back

section Bytes

variable {source front text back : List Char} {s : Span}

theorem eq_of_byteLength_eq {front other text tail : List Char}
    (h : front ++ text = other ++ tail) (hlength : byteLength front = byteLength other) :
    front = other ∧ text = tail := by
  induction front generalizing other with
  | nil =>
    cases other with
    | nil => exact ⟨rfl, h⟩
    | cons c other =>
      have hsize := c.utf8Size_pos
      rw [byteLength_nil, byteLength_cons] at hlength
      omega
  | cons c front ih =>
    cases other with
    | nil =>
      have hsize := c.utf8Size_pos
      rw [byteLength_nil, byteLength_cons] at hlength
      omega
    | cons d other =>
      obtain ⟨rfl, htail⟩ := List.cons.inj h
      rw [byteLength_cons, byteLength_cons, Nat.add_left_cancel_iff] at hlength
      obtain ⟨rfl, rfl⟩ := ih htail hlength
      exact ⟨rfl, rfl⟩

/-- A stretch covers one text at most. -/
theorem Span.Cuts.unique {front' text' back' : List Char} (h : s.Cuts source front text back)
    (h' : s.Cuts source front' text' back') : front = front' ∧ text = text' ∧ back = back' := by
  have hparts : front ++ (text ++ back) = front' ++ (text' ++ back') := by
    rw [← List.append_assoc, ← List.append_assoc, ← h.parts, h'.parts]
  obtain ⟨hfront, hrest⟩ := eq_of_byteLength_eq hparts (h.offset.symm.trans h'.offset)
  obtain ⟨htext, hback⟩ := eq_of_byteLength_eq hrest (h.length.symm.trans h'.length)
  exact ⟨hfront, htext, hback⟩

/-- The stretch of a text behind another one covers that text. -/
theorem Span.cuts_at (front text back : List Char) :
    ((Place.start.advance front).span text).Cuts (front ++ text ++ back) front text back :=
  ⟨rfl, by simp [Place.start, Place.advance, Place.span], rfl⟩

end Bytes

namespace Lexes

variable {p : Place} {cs : List Char} {ts : List Token} {last : Except ScanError Token} {t : Token}
  {e : ScanError}

/-- Every token in front of the last item was scanned from a lexeme where it stands. -/
theorem exists_lexeme (h : Lexes p cs ts last) (ht : t ∈ ts) :
    ∃ front c rest x, cs = front ++ c :: rest ∧ Lexeme.scan c rest = .ok x ∧
      t = x.at (p.advance front) := by
  induction h with
  | finish | fault => cases ht
  | @token p blanks cs c x ts last _ scanned _ ih =>
    rcases List.mem_cons.mp ht with rfl | ht
    · exact ⟨blanks, c, cs, x, rfl, scanned, rfl⟩
    · obtain ⟨front, d, rest, y, hrest, hy, rfl⟩ := ih ht
      refine ⟨blanks ++ x.text ++ front, d, rest, y, ?_, hy, by simp⟩
      rw [← Lexeme.scan_text_append_rest scanned, hrest]
      simp

/-- A fault is that of a text that no lexeme begins. -/
theorem exists_fault (h : Lexes p cs ts (.error e)) :
    ∃ front c rest f, cs = front ++ c :: rest ∧ Lexeme.scan c rest = .error f ∧
      e = f.at (p.advance front) := by
  generalize hlast : Except.error e = last at h
  induction h with
  | finish => cases hlast
  | @fault p blanks cs c f _ _ refused =>
    exact ⟨blanks, c, cs, f, rfl, refused, Except.error.inj hlast⟩
  | @token p blanks cs c x ts last _ scanned _ ih =>
    obtain ⟨front, d, rest, f, hrest, hf, rfl⟩ := ih hlast
    refine ⟨blanks ++ x.text ++ front, d, rest, f, ?_, hf, by simp⟩
    rw [← Lexeme.scan_text_append_rest scanned, hrest]
    simp

end Lexes

/-- How many characters the report on a fault covers behind those that had been read. A character
that begins no lexeme is not read, and of an escape the report always shows one more. -/
def ScanProblem.ahead : ScanProblem → Nat
  | .illegalCharacter _ | .badEscape _ => 1
  | .unterminated _ | .badNumber _ | .halfPair _ => 0

/-- A fault that is found in a text: what had been read is in front of the text, and the faulty
stretch ends there, or as much further as the report looks ahead. -/
def Fault.FoundIn {α : Type} (f : Fault α) (ahead : Nat) (cs : List Char) : Prop :=
  ∃ rest, cs = f.read ++ rest ∧ f.before ++ f.marked = f.read ++ rest.take ahead

section Faults

variable {quote c : Char} {cs : List Char} {f : Fault ScanProblem} {ahead : Nat}

theorem Fault.FoundIn.behind {α : Type} {f : Fault α} (h : f.FoundIn ahead cs)
    (text : List Char) : (f.behind text).FoundIn ahead (text ++ cs) := by
  obtain ⟨rest, hread, hmarked⟩ := h
  exact ⟨rest, by simp [Fault.behind, hread], by simp [Fault.behind, hmarked]⟩

theorem Fault.FoundIn.isPrefix_marked (h : f.FoundIn ahead cs) : f.before ++ f.marked <+: cs := by
  obtain ⟨rest, hread, hmarked⟩ := h
  rw [hmarked, hread]
  exact (List.prefix_append_right_inj f.read).mpr (List.take_prefix ahead rest)

theorem EscapeFamily.foundIn_of_decode {family : EscapeFamily} {opening : List Char}
    {f : Fault EscapeProblem} (h : family.decode opening cs = .error f) :
    f.FoundIn 1 (opening ++ cs) := by
  have hread : (cs.take family.digits).takeWhile family.isDigit ++
      cs.drop ((cs.take family.digits).takeWhile family.isDigit).length = cs :=
    List.prefix_iff_eq_append.mp ((List.takeWhile_prefix _).trans (List.take_prefix _ _))
  simp only [decode] at h
  generalize (cs.take family.digits).takeWhile family.isDigit = digits at h hread
  have hfound (problem : EscapeProblem) :
      (Fault.mk problem [] (opening ++ digits ++ (cs.drop digits.length).take 1)
        (opening ++ digits)).FoundIn 1 (opening ++ cs) :=
    ⟨cs.drop digits.length, by simp [hread], rfl⟩
  split_ifs at h
  · split at h <;> cases h
    exact hfound _
  · cases h
    exact hfound _
  · split at h <;> cases h <;> exact hfound _

theorem Escape.foundIn_of_decode {f : Fault EscapeProblem} (h : decode cs = .error f) :
    f.FoundIn 1 ('\\' :: cs) := by
  cases cs with
  | nil =>
    cases h
    exact ⟨[], rfl, rfl⟩
  | cons c cs =>
    simp only [decode] at h
    split at h
    · cases h
    · exact EscapeFamily.foundIn_of_decode h
    · split at h
      · exact EscapeFamily.foundIn_of_decode h
      · cases h
        exact ⟨c :: cs, rfl, rfl⟩

namespace Lexeme

theorem foundIn_of_body (h : body quote cs = .error (some f)) : f.FoundIn f.problem.ahead cs := by
  fun_induction body quote cs generalizing f with
  | case1 => cases h
  | case2 => cases h
  | case3 cs g hdecode =>
    cases h
    exact Escape.foundIn_of_decode hdecode
  | case4 => cases h
  | case5 cs e hdecode _ g hbody _ ih =>
    cases g with
    | none => cases h
    | some g =>
      cases h
      rw [← Escape.decode_text_append_rest hdecode]
      exact (ih hbody).behind e.text
  | case6 => cases h
  | case7 c cs _ _ g hbody ih =>
    cases g with
    | none => cases h
    | some g =>
      cases h
      exact (ih hbody).behind [c]

theorem foundIn_of_string (h : string quote cs = .error f) :
    f.FoundIn f.problem.ahead (quote :: cs) := by
  unfold string at h
  split at h
  · cases h
  · cases h
    exact ⟨[], by simp, by simp⟩
  · next g hbody =>
    cases h
    exact (foundIn_of_body hbody).behind [quote]

theorem foundIn_of_rawString (h : rawString cs = .error f) :
    f.FoundIn f.problem.ahead (rawQuote :: cs) := by
  simp only [rawString] at h
  split at h
  · cases h
    exact ⟨[], by simp, by simp⟩
  · cases h

theorem foundIn_of_number (h : number cs = .error f) : f.FoundIn f.problem.ahead cs := by
  simp only [number] at h
  split at h
  · cases h
  · cases h
    exact ⟨cs.dropWhile inNumber, List.takeWhile_append_dropWhile.symm,
      (List.append_nil _).symm⟩

/-- A fault is found in the text that no lexeme begins. -/
theorem foundIn_of_scan (h : scan c cs = .error f) : f.FoundIn f.problem.ahead (c :: cs) := by
  unfold scan at h
  split at h
  · cases h
  · split at h <;> cases h
  · split_ifs at h
    cases h
    exact ⟨cs, rfl, rfl⟩
  · split_ifs at h with _ hraw
    · exact foundIn_of_string h
    · rw [hraw]
      exact foundIn_of_rawString h
    · exact foundIn_of_number h
    · cases h
      exact ⟨c :: cs, rfl, rfl⟩

end Lexeme
end Faults

theorem Lexeme.cuts_of_scan {c : Char} {rest : List Char} {x : Lexeme} (h : scan c rest = .ok x)
    (front : List Char) :
    (x.at (Place.start.advance front)).span.Cuts (front ++ c :: rest) front x.text x.rest := by
  rw [← scan_text_append_rest h, ← List.append_assoc]
  exact Span.cuts_at front x.text x.rest

theorem Lexeme.cuts_of_fault {c : Char} {rest : List Char} {f : Fault ScanProblem}
    (h : scan c rest = .error f) (front : List Char) :
    ∃ back, (f.at (Place.start.advance front)).span.Cuts (front ++ c :: rest) (front ++ f.before)
      f.marked back := by
  obtain ⟨back, hback⟩ := (foundIn_of_scan h).isPrefix_marked
  refine ⟨back, ?_⟩
  rw [← hback, ← List.append_assoc, ← List.append_assoc, Fault.at, ← Place.advance_append]
  exact Span.cuts_at (front ++ f.before) f.marked back

/-- A token of a source was scanned from a lexeme where it stands, or it is the end. -/
theorem exists_lexeme_of_tokenize {source : String} {t : Token} (h : t ∈ (tokenize source).1) :
    (∃ front c rest x, source.toList = front ++ c :: rest ∧ Lexeme.scan c rest = .ok x ∧
        t = x.at (Place.start.advance front)) ∨
      t = .eof (Place.start.advance source.toList) := by
  obtain ⟨ts, last, hlexes⟩ := exists_lexes .start source.toList
  rw [tokenize, Lexer.ofString, hlexes.items_eq] at h
  cases last with
  | error e =>
    rw [Lexer.split_of_error] at h
    exact .inl (hlexes.exists_lexeme h)
  | ok u =>
    rw [Lexer.split_of_ok] at h
    rcases List.mem_append.mp h with ht | hlast
    · exact .inl (hlexes.exists_lexeme ht)
    · exact .inr ((List.mem_singleton.mp hlast).trans hlexes.eq_eof)

theorem Token.addresses_of_tokenize {source : String} {t : Token}
    (h : t ∈ (tokenize source).1) : t.span.Addresses source.toList := by
  rcases exists_lexeme_of_tokenize h with ⟨front, c, rest, x, hsource, hscan, rfl⟩ | rfl
  · rw [hsource]
    exact ⟨front, x.text, x.rest, Lexeme.cuts_of_scan hscan front⟩
  · have hends := Span.cuts_at source.toList [] []
    exact ⟨source.toList, [], [], by simpa [Token.eof] using hends⟩

theorem ScanError.addresses_of_tokenize {source : String} {e : ScanError}
    (h : (tokenize source).2 = some e) : e.span.Addresses source.toList := by
  obtain ⟨ts, last, hlexes⟩ := exists_lexes .start source.toList
  rw [tokenize, Lexer.ofString, hlexes.items_eq] at h
  cases last with
  | ok u =>
    rw [Lexer.split_of_ok] at h
    cases h
  | error e' =>
    rw [Lexer.split_of_error] at h
    obtain rfl := Option.some.inj h
    obtain ⟨front, c, rest, f, hsource, hfault, rfl⟩ := hlexes.exists_fault
    obtain ⟨back, hcuts⟩ := Lexeme.cuts_of_fault hfault front
    rw [hsource]
    exact ⟨_, _, _, hcuts⟩

end Formula
