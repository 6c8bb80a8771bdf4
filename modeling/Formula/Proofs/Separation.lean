import Formula.Proofs.Planning
import Formula.Proofs.ScanningRules

/-! Texts with blanks between them. They are scanned one after the other as if each stood alone, but
for the places of the later one, which are counted from the beginning of the whole. -/
namespace Formula

/-- The place as it is counted behind more text. -/
def Place.behind (text : List Char) (p : Place) : Place :=
  ⟨text.length + p.position, byteLength text + p.offset⟩

def Span.behind (text : List Char) (s : Span) : Span :=
  { s with offset := byteLength text + s.offset }

def Token.behind (text : List Char) (t : Token) : Token :=
  { t with position := text.length + t.position, span := t.span.behind text }

def ScanError.behind (text : List Char) (e : ScanError) : ScanError :=
  { e with span := e.span.behind text }

def Lexer.behind (text : List Char) : Except ScanError Token → Except ScanError Token
  | .ok t => .ok (t.behind text)
  | .error e => .error (e.behind text)

theorem Place.start_behind (text : List Char) : start.behind text = start.advance text := by
  simp [behind, start, advance]

theorem Place.behind_advance (text : List Char) (p : Place) (cs : List Char) :
    (p.behind text).advance cs = (p.advance cs).behind text := by
  simp [behind, advance, Nat.add_assoc]

theorem Lexeme.at_behind (text : List Char) (p : Place) (x : Lexeme) :
    x.at (p.behind text) = (x.at p).behind text := rfl

theorem Token.eof_behind (text : List Char) (p : Place) :
    Token.eof (p.behind text) = (Token.eof p).behind text := rfl

theorem Fault.at_behind (text : List Char) (p : Place) (f : Fault ScanProblem) :
    f.at (p.behind text) = (f.at p).behind text := by
  rw [Fault.at, Place.behind_advance]
  rfl

namespace Lexes

variable {p : Place} {cs blanks tail : List Char} {ts : List Token}
  {last : Except ScanError Token}

/-- A text is scanned behind more text as it is at the beginning. -/
theorem behind (h : Lexes p cs ts last) (text : List Char) :
    Lexes (p.behind text) cs (ts.map (Token.behind text)) (Lexer.behind text last) := by
  induction h with
  | finish blank =>
    rw [Lexer.behind, ← Token.eof_behind, ← Place.behind_advance]
    exact .finish blank
  | fault blank starts refused =>
    rw [Lexer.behind, ← Fault.at_behind, ← Place.behind_advance]
    exact .fault blank starts refused
  | token blank scanned _ ih =>
    rw [← Place.behind_advance, ← Place.behind_advance] at ih
    rw [List.map_cons, ← Lexeme.at_behind, ← Place.behind_advance]
    exact .token blank scanned ih

/-- Blanks in front of a text move it and change nothing else. -/
theorem of_blanks (blank : ∀ c ∈ blanks, Text.isBlank c = true)
    (h : Lexes (p.advance blanks) tail ts last) : Lexes p (blanks ++ tail) ts last := by
  have hblank : ∀ {more : List Char}, (∀ c ∈ more, Text.isBlank c = true) →
      ∀ c ∈ blanks ++ more, Text.isBlank c = true := by
    intro more hmore c hc
    exact (List.mem_append.mp hc).elim (blank c) (hmore c)
  cases h with
  | finish more =>
    rw [← Place.advance_append]
    exact .finish (hblank more)
  | fault more starts refused =>
    rw [← Place.advance_append, ← List.append_assoc]
    exact .fault (hblank more) starts refused
  | token more scanned behind =>
    rw [← Place.advance_append p] at behind ⊢
    rw [← List.append_assoc]
    exact .token (hblank more) scanned behind

end Lexes

/-- Behind a text that scans and at least one blank, the next text is scanned from its beginning. -/
theorem Lexes.append {p : Place} {cs tail : List Char} {c : Char} {ts us : List Token}
    {t : Token} {last : Except ScanError Token} (h : Lexes p cs ts (.ok t))
    (blank : Text.isBlank c = true) (behind : Lexes (p.advance cs) (c :: tail) us last) :
    Lexes p (cs ++ c :: tail) (ts ++ us) last := by
  generalize hitem : Except.ok t = item at h
  induction h with
  | finish hcs => exact behind.of_blanks hcs
  | fault => cases hitem
  | @token p blanks cs first x ts last hblanks scanned _ ih =>
    -- The blank behind the text ends its last lexeme too, however far that would read on.
    have hscan := Lexeme.scan_append scanned fun _ => seals_of_isBlank blank tail
    have hplace : (p.advance (blanks ++ first :: cs)) =
        ((p.advance blanks).advance x.text).advance x.rest := by
      rw [← Lexeme.scan_text_append_rest scanned, Place.advance_append, Place.advance_append]
    rw [hplace] at behind
    rw [List.append_assoc, List.cons_append]
    exact .token (x := x.extend (c :: tail)) hblanks hscan (ih behind hitem)

/-- Scanning goes through blanks between two texts: the tokens of the first one stay as they are,
and what the second one is scanned into, faults included, follows with its places moved on. -/
theorem items_append_blanks {source blanks : String} {ts : List Token} {last : Token}
    (scanned : scan source = .ok (ts ++ [last])) (nonempty : blanks ≠ "")
    (blank : ∀ c ∈ blanks.toList, Text.isBlank c = true) (other : String) :
    (Lexer.ofString (source ++ blanks ++ other)).items =
      ts.map .ok ++ (Lexer.ofString other).items.map (Lexer.behind (source ++ blanks).toList) := by
  obtain ⟨us, item, hother⟩ := exists_lexes .start other.toList
  have hmoved := hother.behind (source ++ blanks).toList
  rw [Place.start_behind, String.toList_append, Place.advance_append] at hmoved
  have hbehind := hmoved.of_blanks blank
  obtain ⟨c, more, hblanks⟩ : ∃ c more, blanks.toList = c :: more := by
    apply List.exists_cons_of_ne_nil
    simpa using nonempty
  rw [hblanks, List.cons_append] at hbehind
  have hfirst : Text.isBlank c = true := blank c (by simp [hblanks])
  have hall := (scan_eq_ok_iff.mp scanned).append hfirst hbehind
  rw [← List.cons_append, ← hblanks, ← List.append_assoc] at hall
  rw [Lexer.ofString, String.toList_append, String.toList_append, hall.items_eq, Lexer.ofString,
    hother.items_eq]
  simp [Lexer.behind, Function.comp_def]

/-- An operator that an equals sign behind the blanks does not extend, and which is a fault there. -/
theorem severedOperator_separated :
    scan "'é b' <" = .ok ([⟨.string, some (.text "é b"), 0, ⟨0, 6⟩⟩, ⟨.less, none, 6, ⟨7, 1⟩⟩] ++
        [⟨.eof, none, 7, ⟨8, 0⟩⟩]) ∧
      "\u2003\n" ≠ "" ∧ (∀ c ∈ "\u2003\n".toList, Text.isBlank c = true) ∧
      (Lexer.ofString ("'é b' <" ++ "\u2003\n" ++ "= 1")).items =
        [.ok ⟨.string, some (.text "é b"), 0, ⟨0, 6⟩⟩, .ok ⟨.less, none, 6, ⟨7, 1⟩⟩,
          .error ⟨.halfPair '=', ⟨12, 1⟩⟩] := by
  have scanned : scan "'é b' <" =
      .ok ([⟨.string, some (.text "é b"), 0, ⟨0, 6⟩⟩, ⟨.less, none, 6, ⟨7, 1⟩⟩] ++
        [⟨.eof, none, 7, ⟨8, 0⟩⟩]) := by decide +kernel
  have nonempty : "\u2003\n" ≠ "" := by decide
  have blank : ∀ c ∈ "\u2003\n".toList, Text.isBlank c = true := by
    rw [← List.all_eq_true]
    decide +kernel
  refine ⟨scanned, nonempty, blank, ?_⟩
  rw [items_append_blanks scanned nonempty blank "= 1"]
  decide +kernel

end Formula
