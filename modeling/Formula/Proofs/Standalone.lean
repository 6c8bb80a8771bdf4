import Formula.Proofs.Quotation
import Formula.Proofs.Slices

/-! Tokens by themselves. The text of a token alone is scanned into that token, and what follows it
in its source does not go on with it. -/
namespace Formula

/-- Whether a character behind a token of a kind would go on with it. -/
def Kind.goesOn (k : Kind) (c : Char) : Bool :=
  match k with
  | .identifier | .bool => Lexeme.inWord c
  | .integer | .float => Lexeme.inNumber c
  | .less | .greater | .not => c = '='
  | _ => false

namespace Lexeme

variable {c d : Char} {cs text : List Char} {x : Lexeme} {k short : Kind}

def alone (x : Lexeme) : Lexeme := { x with rest := [] }

section Alone

theorem takeWhile_takeWhile_self (p : Char → Bool) (cs : List Char) :
    (cs.takeWhile p).takeWhile p = cs.takeWhile p ∧ (cs.takeWhile p).dropWhile p = [] := by
  have hall : ∀ d ∈ cs.takeWhile p, p d = true := fun d => List.mem_takeWhile_imp
  exact ⟨List.takeWhile_eq_self_iff.mpr hall, List.dropWhile_eq_nil_iff.mpr hall⟩

theorem word_alone (cs : List Char) : word (word cs).text = (word cs).alone := by
  obtain ⟨htake, hdrop⟩ := takeWhile_takeWhile_self inWord cs
  simp only [word, alone, htake, hdrop]

theorem number_alone (h : number cs = .ok x) : number x.text = .ok x.alone := by
  simp only [number] at h
  split at h
  · next k v hnumeral =>
    obtain rfl := Except.ok.inj h
    obtain ⟨htake, hdrop⟩ := takeWhile_takeWhile_self inNumber cs
    simp only [number, alone, htake, hdrop, hnumeral]
  · cases h

theorem Reads.alone {tail : List Char} (h : Reads c cs x) (htext : x.text = c :: tail) :
    Reads c tail x.alone := by
  cases h with
  | single first =>
    cases htext
    exact .single first
  | extended first next =>
    cases htext
    exact .extended first rfl
  | bare first next =>
    cases htext
    exact .bare first nofun
  | double first next =>
    cases htext
    exact .double first rfl
  | string first read =>
    have hquote := quote_ne_backslash first
    obtain ⟨ss, rest, rfl, rfl⟩ := (string_eq_ok_iff hquote).mp read
    cases htext
    exact .string first ((string_eq_ok_iff hquote).mpr ⟨ss, [], rfl, rfl⟩)
  | raw first read =>
    obtain ⟨text, rest, rfl, hfree, rfl⟩ := rawString_eq_ok_iff.mp read
    cases htext
    exact .raw rfl (rawString_eq_ok_iff.mpr ⟨text, [], rfl, hfree, rfl⟩)
  | word first =>
    have hword := word_alone (c :: cs)
    rw [htext] at hword
    rw [← hword]
    exact .word first
  | number first read =>
    have hnumber := number_alone read
    rw [htext] at hnumber
    exact .number first hnumber

/-- The text of a lexeme begins with the lexeme itself. -/
theorem scan_alone (h : scan c cs = .ok x) :
    ∃ tail, x.text = c :: tail ∧ scan c tail = .ok x.alone := by
  obtain ⟨d, tail, htext⟩ := List.exists_cons_of_ne_nil (text_ne_nil_of_scan h)
  have hread := scan_text_append_rest h
  rw [htext, List.cons_append] at hread
  obtain ⟨rfl, -⟩ := List.cons.inj hread
  exact ⟨tail, htext, ((reads_of_scan h).alone htext).scan_eq⟩

end Alone

section Longest

theorem not_goesOn_of_single? (h : single? c = some k) (d : Char) : k.goesOn d = false := by
  unfold single? at h
  split_ifs at h <;> obtain rfl := Option.some.inj h <;> rfl

theorem not_goesOn_of_double? (h : double? c = some k) (d : Char) : k.goesOn d = false := by
  unfold double? at h
  split_ifs at h <;> obtain rfl := Option.some.inj h <;> rfl

/-- Of an operator that an equals sign may extend, only that sign goes on with the short one. -/
theorem goesOn_of_extensible? (h : extensible? c = some (k, short)) (d : Char) :
    k.goesOn d = false ∧ short.goesOn d = decide (d = '=') := by
  unfold extensible? at h
  split_ifs at h <;> obtain ⟨rfl, rfl⟩ := Prod.mk.inj (Option.some.inj h) <;> exact ⟨rfl, rfl⟩

theorem goesOn_ofWord (name : String) (d : Char) : (Kind.ofWord name).goesOn d = inWord d := by
  unfold Kind.ofWord
  split_ifs <;> rfl

theorem goesOn_of_numeral? {v : Value} (h : numeral? text = some (k, v)) (d : Char) :
    k.goesOn d = inNumber d := by
  unfold numeral? at h
  split_ifs at h
  all_goals
    obtain ⟨_, _, hd⟩ := Option.map_eq_some_iff.mp h
    obtain ⟨rfl, rfl⟩ := Prod.mk.inj hd
    rfl

theorem not_mem_head?_dropWhile {p : Char → Bool} (h : d ∈ (cs.dropWhile p).head?) :
    p d = false := by
  have hhead := List.head?_dropWhile_not p cs
  rw [Option.mem_def.mp h] at hhead
  exact hhead

/-- Nothing that would go on with a lexeme stands behind it. -/
theorem Reads.longest (h : Reads c cs x) (hd : d ∈ x.rest.head?) : x.kind.goesOn d = false := by
  cases h with
  | single first => exact not_goesOn_of_single? first d
  | extended first next => exact (goesOn_of_extensible? first d).1
  | bare first next =>
    rw [(goesOn_of_extensible? first d).2, decide_eq_false_iff_not]
    rintro rfl
    exact next hd
  | double first next => exact not_goesOn_of_double? first d
  | string first read =>
    have hquote := quote_ne_backslash first
    obtain ⟨ss, rest, rfl, rfl⟩ := (string_eq_ok_iff hquote).mp read
    rfl
  | raw first read =>
    obtain ⟨text, rest, rfl, hfree, rfl⟩ := rawString_eq_ok_iff.mp read
    rfl
  | word first =>
    have hkind := goesOn_ofWord (String.ofList ((c :: cs).takeWhile inWord)) d
    exact hkind.trans (not_mem_head?_dropWhile hd)
  | number first read =>
    simp only [Lexeme.number] at read
    split at read
    · next k v hnumeral =>
      obtain rfl := Except.ok.inj read
      exact (goesOn_of_numeral? hnumeral d).trans (not_mem_head?_dropWhile hd)
    · cases read

end Longest
end Lexeme

def Token.atStart (t : Token) : Token := { t with position := 0, span := ⟨0, t.span.length⟩ }

theorem scan_text_of_scan {c : Char} {cs : List Char} {x : Lexeme} (h : Lexeme.scan c cs = .ok x) :
    scan (String.ofList x.text) = .ok ([x.at .start] ++ [.eof (Place.start.advance x.text)]) := by
  obtain ⟨tail, htext, hscan⟩ := Lexeme.scan_alone h
  have hlexes : Lexes .start (c :: tail) [x.alone.at .start]
      (.ok (.eof (Place.start.advance x.alone.text))) :=
      .token (List.forall_mem_nil _) hscan (.finish (List.forall_mem_nil _))
  rw [← htext] at hlexes
  rw [scan_eq_ok_iff, String.toList_ofList]
  exact hlexes

/-- The text that a token covers is scanned into that token alone, and it is as long as it can be:
what follows it does not go on with it. -/
theorem token_stands_alone (source : String) (t : Token)
    (yielded : .ok t ∈ (Lexer.ofString source).items) (inner : t.kind ≠ .eof) :
    t.span.Addresses source.toList ∧
      ∀ front text back, t.span.Cuts source.toList front text back →
        t.position = front.length ∧
          scan (String.ofList text) = .ok [t.atStart, .eof (Place.start.advance text)] ∧
          ∀ d ∈ back.head?, t.kind.goesOn d = false := by
  obtain ⟨ts, last, hlexes⟩ := exists_lexes .start source.toList
  rw [Lexer.ofString, hlexes.items_eq] at yielded
  have ht : t ∈ ts := by
    rcases List.mem_append.mp yielded with hmem | hlast
    · simpa using hmem
    · obtain rfl := List.mem_singleton.mp hlast
      rw [hlexes.eq_eof] at inner
      exact absurd rfl inner
  obtain ⟨front, c, rest, x, hsource, hscan, rfl⟩ := hlexes.exists_lexeme ht
  have hcuts := Lexeme.cuts_of_scan hscan front
  rw [← hsource] at hcuts
  refine ⟨⟨front, x.text, x.rest, hcuts⟩, fun front' text' back' hcuts' => ?_⟩
  obtain ⟨rfl, rfl, rfl⟩ := hcuts.unique hcuts'
  refine ⟨?_, scan_text_of_scan hscan, fun d hd => (Lexeme.reads_of_scan hscan).longest hd⟩
  simp [Lexeme.at, Place.start, Place.advance]

/-- A name that begins with a keyword, in front of a fault. -/
theorem truest_stands_alone :
    .ok ⟨.identifier, some (.text "truest"), 2, ⟨3, 6⟩⟩ ∈ (Lexer.ofString "é>truest&").items ∧
      Kind.identifier ≠ .eof ∧
      scan (String.ofList "truest".toList) = .ok
        [⟨.identifier, some (.text "truest"), 0, ⟨0, 6⟩⟩, ⟨.eof, none, 6, ⟨6, 0⟩⟩] ∧
      ∀ d ∈ "&".toList.head?, Kind.identifier.goesOn d = false := by
  have yielded : .ok ⟨.identifier, some (.text "truest"), 2, ⟨3, 6⟩⟩ ∈
      (Lexer.ofString "é>truest&").items := by decide +kernel
  have hcuts : (Span.mk 3 6).Cuts "é>truest&".toList "é>".toList "truest".toList "&".toList :=
    ⟨by decide, by decide, by decide⟩
  obtain ⟨-, hscan, hlongest⟩ := (token_stands_alone _ _ yielded nofun).2 _ _ _ hcuts
  exact ⟨yielded, nofun, hscan, hlongest⟩

end Formula
