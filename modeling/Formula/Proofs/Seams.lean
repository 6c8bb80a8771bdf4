import Formula.Proofs.InOrder
import Formula.Proofs.ScannedTokens

/-! What a text is scanned into, without regard to where the tokens stand. Texts that meet where
nothing goes on with a lexeme are scanned as if each stood alone. -/
namespace Formula

/-- What a lexeme says, which is what its token says wherever it stands. -/
def Lexeme.content (x : Lexeme) : Content := (x.at .start).content

theorem Lexeme.content_mark (k : Kind) (text rest : List Char) :
    (Lexeme.mk k none text rest).content = ⟨k, none⟩ := by
  unfold content Token.content
  split <;> rfl

inductive Scans : List Char → List Content → Prop where
  | blank {cs : List Char} (none : cs.dropWhile Text.isBlank = []) : Scans cs []
  | lexeme {c : Char} {cs rest : List Char} {x : Lexeme} {contents : List Content}
      (next : cs.dropWhile Text.isBlank = c :: rest) (scanned : Lexeme.scan c rest = .ok x)
      (behind : Scans x.rest contents) : Scans cs (x.content :: contents)

theorem Lexes.scans {p : Place} {cs : List Char} {ts : List Token} {t : Token}
    (h : Lexes p cs ts (.ok t)) : Scans cs (ts.map Token.content) := by
  generalize hlast : Except.ok t = last at h
  induction h with
  | finish blank => exact .blank (List.dropWhile_eq_nil_iff.mpr blank)
  | fault => cases hlast
  | token blank scanned _ ih =>
    have hstarts := Lexeme.not_isBlank_of_scan scanned
    exact .lexeme (skip_blanks blank hstarts _).1 scanned (ih hlast)

theorem Scans.exists_lexes {cs : List Char} {contents : List Content} (h : Scans cs contents)
    (p : Place) : ∃ ts q, Lexes p cs ts (.ok (.eof q)) ∧ ts.map Token.content = contents := by
  induction h generalizing p with
  | blank none => exact ⟨[], _, .finish (List.dropWhile_eq_nil_iff.mp none), rfl⟩
  | @lexeme c cs rest x contents next scanned behind ih =>
    rcases exists_blanks cs with hblank | ⟨blanks, d, ds, rfl, hblank, hstarts⟩
    · cases (List.dropWhile_eq_nil_iff.mpr hblank).symm.trans next
    · obtain ⟨rfl, rfl⟩ := List.cons.inj ((skip_blanks hblank hstarts ds).1.symm.trans next)
      obtain ⟨ts, q, hts, rfl⟩ := ih ((p.advance blanks).advance x.text)
      exact ⟨_, q, .token hblank scanned hts, rfl⟩

/-- A source is scanned into tokens with an end behind them exactly if its text is scanned into
what they say. -/
theorem scans_iff {source : String} {contents : List Content} :
    Scans source.toList contents ↔
      ∃ body p, scan source = .ok (body ++ [Token.eof p]) ∧ body.map Token.content = contents := by
  constructor
  · intro h
    obtain ⟨body, p, hlexes, hcontents⟩ := h.exists_lexes .start
    exact ⟨body, p, scan_eq_ok_iff.mpr hlexes, hcontents⟩
  · rintro ⟨body, p, hscan, rfl⟩
    exact (scan_eq_ok_iff.mp hscan).scans

namespace Scans

theorem nil : Scans [] [] := .blank rfl

variable {cs ds tail : List Char} {c : Char} {k : Kind} {as bs : List Content}

/-- Blanks in front make no difference. -/
theorem of_dropWhile_eq (h : Scans ds bs)
    (heq : cs.dropWhile Text.isBlank = ds.dropWhile Text.isBlank) : Scans cs bs := by
  cases h with
  | blank none => exact .blank (heq.trans none)
  | lexeme next scanned behind => exact .lexeme (heq.trans next) scanned behind

/-- Texts are scanned one after the other if the second one goes on with no lexeme. -/
theorem append (h : Scans cs as) (htail : Scans tail bs) (hseal : Seals tail) :
    Scans (cs ++ tail) (as ++ bs) := by
  induction h with
  | blank none =>
    apply htail.of_dropWhile_eq
    simp [List.dropWhile_append, none]
  | @lexeme c cs rest x contents next scanned behind ih =>
    have hnext : (cs ++ tail).dropWhile Text.isBlank = c :: (rest ++ tail) := by
      simp [List.dropWhile_append, next]
    have hcontent : x.content = (x.extend tail).content := rfl
    rw [List.cons_append, hcontent]
    exact .lexeme hnext (Lexeme.scan_append scanned fun _ => hseal) ih

theorem of_scan {x : Lexeme} (hscan : Lexeme.scan c cs = .ok x) (h : Scans x.rest bs) :
    Scans (c :: cs) (x.content :: bs) := by
  have hblank := Lexeme.not_isBlank_of_scan hscan
  exact .lexeme (by simp [hblank]) hscan h

/-- An operator of one character that no other begins with is scanned in front of any text. -/
theorem single (hc : Lexeme.single? c = some k) (h : Scans tail bs) :
    Scans (c :: tail) (⟨k, none⟩ :: bs) := by
  have hscan : Lexeme.scan c tail = .ok ⟨k, none, [c], tail⟩ := (Lexeme.Reads.single hc).scan_eq
  rw [← Lexeme.content_mark k [c] tail]
  exact of_scan hscan h

end Scans

theorem Kind.exists_scan_display {k : Kind} (hmark : k.IsMark) (hk : k ≠ .illegal) :
    ∃ c cs, k.display.toList = c :: cs ∧ Lexeme.scan c cs = .ok ⟨k, none, c :: cs, []⟩ := by
  cases k with
  | illegal => exact absurd rfl hk
  | eof => exact absurd rfl hmark.2.2
  | identifier => exact absurd rfl hmark.2.1
  | bool | integer | float | string => cases hmark.1
  | _ => exact ⟨_, _, rfl, rfl⟩

/-- An operator or a parenthesis is scanned as what it is printed for. -/
theorem Kind.scans_display {k : Kind} (hmark : k.IsMark) (hk : k ≠ .illegal) :
    Scans k.display.toList [⟨k, none⟩] := by
  obtain ⟨c, cs, htext, hscan⟩ := exists_scan_display hmark hk
  rw [htext, ← Lexeme.content_mark k (c :: cs) []]
  exact Scans.of_scan hscan .nil

theorem Symbol.isMark_kind {s : Symbol} (h : s.IsOperation) :
    s.kind.IsMark ∧ s.kind ≠ .illegal := by
  cases s with
  | reference | literal => cases h.1
  | group => exact absurd rfl h.2
  | _ => exact ⟨⟨rfl, nofun, nofun⟩, nofun⟩

theorem Symbol.display_eq_display_kind {s : Symbol} (h : s.IsOperation) :
    s.display = s.kind.display := by
  cases s with
  | reference | literal => cases h.1
  | group => exact absurd rfl h.2
  | _ => rfl

theorem Symbol.scans_display {s : Symbol} (h : s.IsOperation) :
    Scans s.display.toList [⟨s.kind, none⟩] := by
  obtain ⟨hmark, hlegal⟩ := isMark_kind h
  rw [display_eq_display_kind h]
  exact Kind.scans_display hmark hlegal

end Formula
