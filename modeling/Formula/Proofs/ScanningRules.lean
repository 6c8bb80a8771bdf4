import Mathlib.Data.List.TakeWhile
import Formula.Proofs.Lexemes
import Formula.Token.Lexer

/-! Scanning by rules. A text that begins at a place is scanned by one derivation, on which every
fact about its tokens and their places is proved by induction. -/
namespace Formula

/-- The rules by which a text that begins at a place is scanned: its tokens in their order, and what
comes last, the end or a fault. -/
inductive Lexes : Place → List Char → List Token → Except ScanError Token → Prop where
  | finish {p : Place} {cs : List Char} (blank : ∀ c ∈ cs, Text.isBlank c = true) :
      Lexes p cs [] (.ok (.eof (p.advance cs)))
  | fault {p : Place} {blanks cs : List Char} {c : Char} {f : Fault ScanProblem}
      (blank : ∀ c ∈ blanks, Text.isBlank c = true) (starts : Text.isBlank c = false)
      (refused : Lexeme.scan c cs = .error f) :
      Lexes p (blanks ++ c :: cs) [] (.error (f.at (p.advance blanks)))
  | token {p : Place} {blanks cs : List Char} {c : Char} {x : Lexeme} {ts : List Token}
      {last : Except ScanError Token} (blank : ∀ c ∈ blanks, Text.isBlank c = true)
      (scanned : Lexeme.scan c cs = .ok x)
      (behind : Lexes ((p.advance blanks).advance x.text) x.rest ts last) :
      Lexes p (blanks ++ c :: cs) (x.at (p.advance blanks) :: ts) last

theorem exists_blanks (cs : List Char) :
    (∀ c ∈ cs, Text.isBlank c = true) ∨
      ∃ blanks c rest, cs = blanks ++ c :: rest ∧ (∀ c ∈ blanks, Text.isBlank c = true) ∧
        Text.isBlank c = false := by
  cases hrest : cs.dropWhile Text.isBlank with
  | nil => exact .inl (List.dropWhile_eq_nil_iff.mp hrest)
  | cons c rest =>
    refine .inr ⟨cs.takeWhile Text.isBlank, c, rest, ?_, fun _ => List.mem_takeWhile_imp, ?_⟩
    · rw [← hrest, List.takeWhile_append_dropWhile]
    · have hhead := List.head?_dropWhile_not Text.isBlank cs
      simpa [hrest] using hhead

theorem skip_blanks {blanks : List Char} {c : Char} (blank : ∀ c ∈ blanks, Text.isBlank c = true)
    (starts : Text.isBlank c = false) (cs : List Char) :
    (blanks ++ c :: cs).dropWhile Text.isBlank = c :: cs ∧
      (blanks ++ c :: cs).takeWhile Text.isBlank = blanks :=
  (takeWhile_append_cons blank starts cs).symm

namespace Lexer

variable {p : Place} {blanks cs : List Char} {c : Char} {x : Lexeme} {f : Fault ScanProblem}

theorem items_of_done {l : Lexer} (h : l.done = true) : l.items = [] := by
  have hnext : l.next? = none := by simp [next?, h]
  rw [items]
  split
  · rfl
  · next hsome => simp [hnext] at hsome

theorem items_of_next? {l l' : Lexer} {item : Except ScanError Token}
    (h : l.next? = some (item, l')) : l.items = item :: l'.items := by
  rw [items]
  split
  · next hnone => simp [h] at hnone
  · next hsome =>
    obtain ⟨rfl, rfl⟩ := Prod.mk.inj (Option.some.inj (h.symm.trans hsome))
    rfl

theorem next?_of_blanks (blank : ∀ c ∈ cs, Text.isBlank c = true) :
    (Lexer.mk p cs false).next? =
      some (.ok (.eof (p.advance cs)), ⟨p.advance cs, [], true⟩) := by
  have hdrop : cs.dropWhile Text.isBlank = [] := List.dropWhile_eq_nil_iff.mpr blank
  have htake : cs.takeWhile Text.isBlank = cs := List.takeWhile_eq_self_iff.mpr blank
  simp [next?, tokenPlace, hdrop, htake]

theorem next?_of_error (blank : ∀ c ∈ blanks, Text.isBlank c = true)
    (starts : Text.isBlank c = false) (refused : Lexeme.scan c cs = .error f) :
    (Lexer.mk p (blanks ++ c :: cs) false).next? =
      some (.error (f.at (p.advance blanks)),
        ⟨(p.advance blanks).advance f.read, (c :: cs).drop f.read.length, true⟩) := by
  obtain ⟨hdrop, htake⟩ := skip_blanks blank starts cs
  simp [next?, tokenPlace, hdrop, htake, refused]

theorem next?_of_ok (blank : ∀ c ∈ blanks, Text.isBlank c = true)
    (scanned : Lexeme.scan c cs = .ok x) :
    (Lexer.mk p (blanks ++ c :: cs) false).next? =
      some (.ok (x.at (p.advance blanks)),
        ⟨(p.advance blanks).advance x.text, x.rest, false⟩) := by
  obtain ⟨hdrop, htake⟩ := skip_blanks blank (Lexeme.not_isBlank_of_scan scanned) cs
  simp [next?, tokenPlace, hdrop, htake, scanned]

theorem split_of_ok (ts : List Token) (t : Token) :
    split (ts.map .ok ++ [.ok t]) = (ts ++ [t], none) := by
  induction ts with
  | nil => rfl
  | cons u ts ih => simp [split, ih]

theorem split_of_error (ts : List Token) (e : ScanError) :
    split (ts.map .ok ++ [.error e]) = (ts, some e) := by
  induction ts with
  | nil => rfl
  | cons u ts ih => simp [split, ih]

end Lexer

/-- Every text is scanned by the rules. -/
theorem exists_lexes (p : Place) (cs : List Char) : ∃ ts last, Lexes p cs ts last := by
  induction hsize : cs.length using Nat.strong_induction_on generalizing p cs with
  | _ size ih =>
  rcases exists_blanks cs with hblank | ⟨blanks, c, rest, rfl, hblank, hstarts⟩
  · exact ⟨[], _, .finish hblank⟩
  cases hscan : Lexeme.scan c rest with
  | error f => exact ⟨[], _, .fault hblank hstarts hscan⟩
  | ok x =>
    -- A lexeme takes at least its first character, so less is left behind it.
    have hless := Lexeme.length_rest_lt_of_scan hscan
    rw [List.length_append] at hsize
    obtain ⟨ts, last, hts⟩ := ih _ (by omega) ((p.advance blanks).advance x.text) x.rest rfl
    exact ⟨_, last, .token hblank hscan hts⟩

namespace Lexes

variable {p : Place} {cs : List Char} {ts : List Token} {last : Except ScanError Token} {t : Token}

/-- A scanner gives what the rules say, item by item. -/
theorem items_eq (h : Lexes p cs ts last) :
    (Lexer.mk p cs false).items = ts.map .ok ++ [last] := by
  induction h with
  | finish blank =>
    rw [Lexer.items_of_next? (Lexer.next?_of_blanks blank), Lexer.items_of_done rfl]
    rfl
  | fault blank starts refused =>
    rw [Lexer.items_of_next? (Lexer.next?_of_error blank starts refused), Lexer.items_of_done rfl]
    rfl
  | token blank scanned _ ih =>
    rw [Lexer.items_of_next? (Lexer.next?_of_ok blank scanned), ih]
    rfl

/-- Without a fault the last token is the end, behind the whole text. -/
theorem eq_eof (h : Lexes p cs ts (.ok t)) : t = .eof (p.advance cs) := by
  generalize hlast : Except.ok t = last at h
  induction h with
  | finish => exact Except.ok.inj hlast
  | fault => cases hlast
  | token _ scanned _ ih =>
    rw [ih hlast, ← Lexeme.scan_text_append_rest scanned, Place.advance_append,
      Place.advance_append]

end Lexes

theorem exists_lexes_of_scan {source : String} {ts : List Token} (h : scan source = .ok ts) :
    ∃ body p, ts = body ++ [Token.eof p] ∧ Lexes .start source.toList body (.ok (.eof p)) := by
  obtain ⟨body, item, hlexes⟩ := exists_lexes .start source.toList
  rw [scan, tokenize, Lexer.ofString, hlexes.items_eq] at h
  cases item with
  | error e =>
    rw [Lexer.split_of_error] at h
    cases h
  | ok t =>
    obtain rfl := hlexes.eq_eof
    rw [Lexer.split_of_ok] at h
    exact ⟨body, _, (Except.ok.inj h).symm, hlexes⟩

/-- A source scans exactly if its text does by the rules. -/
theorem scan_eq_ok_iff {source : String} {ts : List Token} {last : Token} :
    scan source = .ok (ts ++ [last]) ↔ Lexes .start source.toList ts (.ok last) := by
  constructor
  · intro h
    obtain ⟨body, p, hts, hlexes⟩ := exists_lexes_of_scan h
    obtain ⟨rfl, rfl⟩ := List.append_singleton_inj.mp hts
    exact hlexes
  · intro h
    rw [scan, tokenize, Lexer.ofString, h.items_eq, Lexer.split_of_ok]

end Formula
