import Formula.Proofs.Adjacency
import Formula.Proofs.ScanningRules

/-! The tokens of a source: each carries the value of its kind, and the last one alone is an end. -/
namespace Formula

def Token.Inner (t : Token) : Prop := t.Valued ∧ t.kind ≠ .eof

/-- A kind of token that is written as one operator or parenthesis. -/
def Kind.IsMark (k : Kind) : Prop := k.isLiteral = false ∧ k ≠ .identifier ∧ k ≠ .eof

namespace Lexeme

variable {c : Char} {cs text : List Char} {x : Lexeme} {k short : Kind} {p : Place}

theorem isMark_of_single? (h : single? c = some k) : k.IsMark := by
  unfold single? at h
  split_ifs at h <;> obtain rfl := Option.some.inj h <;> simp [Kind.IsMark, Kind.isLiteral]

theorem isMark_of_extensible? (h : extensible? c = some (k, short)) : k.IsMark ∧ short.IsMark := by
  unfold extensible? at h
  split_ifs at h <;> obtain ⟨rfl, rfl⟩ := Prod.mk.inj (Option.some.inj h) <;>
    simp [Kind.IsMark, Kind.isLiteral]

theorem isMark_of_double? (h : double? c = some k) : k.IsMark := by
  unfold double? at h
  split_ifs at h <;> obtain rfl := Option.some.inj h <;> simp [Kind.IsMark, Kind.isLiteral]

inductive Carries : Kind → Option Value → Prop where
  | mark {k : Kind} (mark : k.IsMark) (legal : k ≠ .illegal) : Carries k none
  | literal (v : Value) : Carries v.literalKind (some v)
  | name (s : String) : Carries .identifier (some (.text s))

theorem carries_word (cs : List Char) : Carries (word cs).kind (word cs).value := by
  by_cases h : Kind.ofWord (String.ofList (cs.takeWhile inWord)) = .bool
  · simp only [word, wordValue, h, if_true]
    exact .literal (.bool _)
  · have hword : Kind.ofWord (String.ofList (cs.takeWhile inWord)) = .identifier := by
      unfold Kind.ofWord at h ⊢
      split_ifs at h ⊢
      · exact absurd rfl h
      · rfl
    simp only [word, wordValue, hword, reduceCtorEq, if_false]
    exact .name _

theorem literalKind_of_numeral? {v : Value} (h : numeral? text = some (k, v)) :
    k = v.literalKind := by
  unfold numeral? at h
  split_ifs at h
  all_goals
    obtain ⟨_, _, hd⟩ := Option.map_eq_some_iff.mp h
    obtain ⟨rfl, rfl⟩ := Prod.mk.inj hd
    rfl

theorem carries_number (h : number cs = .ok x) : Carries x.kind x.value := by
  simp only [number] at h
  split at h
  · next k v hv =>
    obtain rfl := literalKind_of_numeral? hv
    obtain rfl := Except.ok.inj h
    exact .literal v
  · cases h

theorem carries_string (h : string c cs = .ok x) : Carries x.kind x.value := by
  unfold string at h
  split at h
  · obtain rfl := Except.ok.inj h
    exact .literal (.text _)
  · cases h
  · cases h

theorem carries_rawString (h : rawString cs = .ok x) : Carries x.kind x.value := by
  simp only [rawString] at h
  split at h
  · cases h
  · obtain rfl := Except.ok.inj h
    exact .literal (.text _)

theorem carries_of_scan (h : scan c cs = .ok x) : Carries x.kind x.value := by
  cases reads_of_scan h with
  | single first =>
    exact .mark (isMark_of_single? first) fun hk => single?_ne_illegal c (hk ▸ first)
  | extended first next =>
    exact .mark (isMark_of_extensible? first).1 (ne_illegal_of_extensible? first).1
  | bare first next =>
    exact .mark (isMark_of_extensible? first).2 (ne_illegal_of_extensible? first).2
  | double first next =>
    exact .mark (isMark_of_double? first) fun hk => double?_ne_illegal c (hk ▸ first)
  | string first read => exact carries_string read
  | raw first read => exact carries_rawString read
  | word first => exact carries_word _
  | number first read => exact carries_number read

namespace Carries

variable {value : Option Value}

theorem inner (h : Carries k value) (position : Nat) (span : Span) :
    (Token.mk k value position span).Inner := by
  cases h with
  | mark mark _ =>
    obtain ⟨hliteral, hidentifier, heof⟩ := mark
    exact ⟨⟨fun hk => absurd hk hidentifier, fun hk => by simp [hliteral] at hk⟩, heof⟩
  | literal v =>
    refine ⟨⟨fun hk => ?_, fun _ => ⟨v, rfl, rfl⟩⟩, ?_⟩
    · cases v <;> cases hk
    · cases v <;> nofun
  | name s => exact ⟨⟨fun _ => ⟨s, rfl⟩, nofun⟩, nofun⟩

theorem ne_illegal (h : Carries k value) : k ≠ .illegal := by
  cases h with
  | mark _ legal => exact legal
  | literal v => cases v <;> nofun
  | name => nofun

end Carries

theorem inner_of_scan (h : scan c cs = .ok x) : (x.at p).Inner :=
  (carries_of_scan h).inner _ _

end Lexeme

/-- Every token in front of the last item carries the value of its kind and is no end. -/
theorem Lexes.inner {p : Place} {cs : List Char} {ts : List Token} {last : Except ScanError Token}
    (h : Lexes p cs ts last) : ∀ t ∈ ts, t.Inner := by
  induction h with
  | finish | fault => simp
  | token _ scanned _ ih => exact List.forall_mem_cons.mpr ⟨Lexeme.inner_of_scan scanned, ih⟩

/-- A source that scans has inner tokens and the end behind them. -/
theorem exists_body_of_scan {source : String} {ts : List Token} (h : scan source = .ok ts) :
    ∃ body p, ts = body ++ [Token.eof p] ∧ ∀ t ∈ body, t.Inner := by
  obtain ⟨body, p, hts, hlexes⟩ := exists_lexes_of_scan h
  exact ⟨body, p, hts, hlexes.inner⟩

end Formula
