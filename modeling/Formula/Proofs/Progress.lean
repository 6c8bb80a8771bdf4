import Mathlib.Logic.Function.Iterate
import Formula.Proofs.Slices

/-! Calls of a scanner, one after another. As long as it is not done, a call takes at least one code
point or is the last one that gives anything: the end or a fault. After that calls give nothing and
change nothing. -/
namespace Formula

/-- An item behind which there is none: the end of a source or a fault. -/
def Final : Except ScanError Token → Prop
  | .ok t => t.kind = .eof
  | .error _ => True

namespace Lexer

/-- A call of a scanner: what it gives, if anything, and the scanner as it is left. -/
def call (l : Lexer) : Option (Except ScanError Token) × Lexer :=
  match l.next? with
  | none => (none, l)
  | some (item, left) => (some item, left)

def after (l : Lexer) (calls : Nat) : Lexer := (fun m => m.call.2)^[calls] l

/-- The scanner stands in a source: what lies behind it and what is left make up the source. -/
def StandsIn (l : Lexer) (source : List Char) : Prop :=
  ∃ front, source = front ++ l.rest ∧ l.place = Place.start.advance front

structure Proceeds (source : List Char) (l : Lexer) (item : Except ScanError Token)
    (left : Lexer) : Prop where
  call : l.call = (some item, left)
  stands : left.StandsIn source
  final : Final item ↔ left.done = true
  advances : left.done = true ∨ l.place.position < left.place.position
  marks : ∀ e, item = .error e → e.span.Addresses source
  /-- A fault leaves the scanner where it was found, which its stretch tells. -/
  stops : ∀ e, item = .error e →
    left.place.offset + byteLength (left.rest.take e.problem.ahead) = e.span.offset + e.span.length

structure Orderly (source : List Char) (l : Lexer) : Prop where
  bounded : l.place.position ≤ source.length
  proceeds : l.done = false → ∃ item left, Proceeds source l item left
  fused : l.done = true → ∀ calls, (l.after calls).call = (none, l)

section Calls

variable {l : Lexer} {source : List Char} {item : Except ScanError Token}

theorem next?_eq_none_iff : l.next? = none ↔ l.done = true := by
  unfold next?
  split
  · next hdone => simp [hdone]
  · next hdone =>
    simp only [hdone]
    split
    · simp
    · split <;> simp

theorem call_of_done (h : l.done = true) : l.call = (none, l) := by
  rw [call, next?_eq_none_iff.mpr h]

theorem call_of_next? {left : Lexer} (h : l.next? = some (item, left)) :
    l.call = (some item, left) := by
  rw [call, h]

theorem after_succ (l : Lexer) (calls : Nat) : l.after (calls + 1) = (l.after calls).call.2 :=
  Function.iterate_succ_apply' _ calls l

theorem after_of_done (h : l.done = true) (calls : Nat) : l.after calls = l := by
  have hfixed : l.call.2 = l := by rw [call_of_done h]
  exact Function.iterate_fixed hfixed calls

theorem standsIn_ofString (source : String) : (ofString source).StandsIn source.toList :=
  ⟨[], rfl, rfl⟩

theorem StandsIn.position_le (h : l.StandsIn source) : l.place.position ≤ source.length := by
  obtain ⟨front, hsource, hplace⟩ := h
  rw [hplace, hsource]
  simp [Place.start, Place.advance]

/-- Behind the blanks that come next stands what is left of the source. -/
theorem StandsIn.exists_front (h : l.StandsIn source) :
    ∃ front, source = front ++ l.rest.dropWhile Text.isBlank ∧
      l.tokenPlace = Place.start.advance front := by
  obtain ⟨front, hsource, hplace⟩ := h
  refine ⟨front ++ l.rest.takeWhile Text.isBlank, ?_, ?_⟩
  · rw [List.append_assoc, List.takeWhile_append_dropWhile, hsource]
  · rw [tokenPlace, hplace, Place.advance_append]

/-- Only the end and a fault are given without a step to the right: a lexeme takes at least its
first character. -/
theorem StandsIn.exists_proceeds (h : l.StandsIn source) (unfinished : l.done = false) :
    ∃ item left, Proceeds source l item left := by
  obtain ⟨p, cs, done⟩ := l
  obtain ⟨front, rfl, rfl⟩ := h
  obtain rfl : done = false := unfinished
  rcases exists_blanks cs with hblank | ⟨blanks, c, rest, rfl, hblank, hstarts⟩
  · have hnext := next?_of_blanks (p := Place.start.advance front) hblank
    refine ⟨_, _, call_of_next? hnext, ⟨front ++ cs, by simp, by simp⟩, ?_, .inl rfl, ?_, ?_⟩
    · simp [Final, Token.eof]
    · rintro e ⟨⟩
    · rintro e ⟨⟩
  cases hscan : Lexeme.scan c rest with
  | error f =>
    have hnext := next?_of_error (p := Place.start.advance front) hblank hstarts hscan
    obtain ⟨back, hread, hmarked⟩ := Lexeme.foundIn_of_scan hscan
    have hback : (c :: rest).drop f.read.length = back := by rw [hread, List.drop_left]
    refine ⟨_, _, call_of_next? hnext, ⟨front ++ blanks ++ f.read, ?_, by simp⟩, ?_, .inl rfl, ?_,
      ?_⟩
    · rw [hback, hread]
      simp
    · simp [Final]
    · rintro e ⟨⟩
      obtain ⟨back, hcuts⟩ := Lexeme.cuts_of_fault hscan (front ++ blanks)
      rw [Place.advance_append, List.append_assoc] at hcuts
      exact ⟨_, _, _, hcuts⟩
    · rintro e ⟨⟩
      have hbytes := congrArg byteLength hmarked
      rw [byteLength_append, byteLength_append] at hbytes
      simp only [hback, Fault.at, Place.advance, Place.span]
      omega
  | ok x =>
    have hnext := next?_of_ok (p := Place.start.advance front) hblank hscan
    have hread := Lexeme.scan_text_append_rest hscan
    refine ⟨_, _, call_of_next? hnext, ⟨front ++ blanks ++ x.text, ?_, by simp⟩, ?_, .inr ?_, ?_,
      ?_⟩
    · simp [← hread]
    · simpa [Final] using (Lexeme.inner_of_scan hscan).2
    · have htext := List.length_pos_iff.mpr (Lexeme.text_ne_nil_of_scan hscan)
      simp only [Place.start, Place.advance]
      omega
    · rintro e ⟨⟩
    · rintro e ⟨⟩

theorem StandsIn.call (h : l.StandsIn source) : l.call.2.StandsIn source := by
  cases hdone : l.done with
  | false =>
    obtain ⟨item, left, hproceeds⟩ := h.exists_proceeds hdone
    rw [hproceeds.call]
    exact hproceeds.stands
  | true => rwa [call_of_done hdone]

/-- No call takes a scanner out of its source. -/
theorem StandsIn.after (h : l.StandsIn source) (calls : Nat) : (l.after calls).StandsIn source := by
  induction calls with
  | zero => exact h
  | succ calls ih =>
    rw [after_succ]
    exact ih.call

theorem StandsIn.orderly (h : l.StandsIn source) : Orderly source l where
  bounded := h.position_le
  proceeds := h.exists_proceeds
  fused hdone calls := by rw [after_of_done hdone, call_of_done hdone]

/-- A call gives the first item and leaves the others. -/
theorem items_call (l : Lexer) : l.items.head? = l.call.1 ∧ l.items.tail = l.call.2.items := by
  cases hnext : l.next? with
  | none =>
    have hdone := next?_eq_none_iff.mp hnext
    rw [call_of_done hdone, items_of_done hdone]
    exact ⟨rfl, rfl⟩
  | some step =>
    rw [call_of_next? hnext, items_of_next? hnext]
    exact ⟨rfl, rfl⟩

theorem items_after (l : Lexer) (calls : Nat) : (l.after calls).items = l.items.drop calls := by
  induction calls with
  | zero => rfl
  | succ calls ih => rw [after_succ, ← (items_call _).2, ih, List.tail_drop]

/-- The calls of a scanner give its items in their turn, and then nothing. -/
theorem call_after (l : Lexer) (calls : Nat) : (l.after calls).call.1 = l.items[calls]? := by
  rw [← (items_call _).1, items_after, List.head?_drop]

/-- A fault that is given is what scanning the whole source comes to. -/
theorem scan_eq_error_of_call {source : String} {calls : Nat} {e : ScanError}
    (h : ((ofString source).after calls).call.1 = some (.error e)) : scan source = .error e := by
  obtain ⟨ts, last, hlexes⟩ := exists_lexes .start source.toList
  have hitems : (ofString source).items = ts.map .ok ++ [last] := hlexes.items_eq
  rw [call_after, hitems] at h
  obtain rfl : .error e = last := by simpa using List.mem_of_getElem? h
  rw [scan, tokenize, hitems, split_of_error]

/-- There are no more items than code points left, and one. -/
theorem length_items_le (l : Lexer) : l.items.length ≤ l.remaining := by
  fun_induction items l with
  | case1 => exact Nat.zero_le _
  | case2 l item left hnext hless ih =>
    rw [List.length_cons]
    omega

end Calls

/-- A scanner of `n` code points never leaves them, and each call before it is done takes at least
one of them or makes it done. There are at most `n + 1` items, of which the last one is the end or a
fault and no other is; behind it calls give nothing and change nothing. -/
theorem calls_exhaust (source : String) :
    (∀ calls, Orderly source.toList ((ofString source).after calls)) ∧
      (∀ calls, ((ofString source).after calls).call.1 = (ofString source).items[calls]?) ∧
      ∃ (ts : List Token) (last : Except ScanError Token),
        (ofString source).items = ts.map .ok ++ [last] ∧ ts.length ≤ source.toList.length ∧
          (∀ t ∈ ts, ¬ Final (.ok t)) ∧ Final last := by
  have hstands := standsIn_ofString source
  refine ⟨fun calls => (hstands.after calls).orderly, call_after _, ?_⟩
  obtain ⟨ts, last, hlexes⟩ := exists_lexes .start source.toList
  have hitems : (ofString source).items = ts.map .ok ++ [last] := hlexes.items_eq
  have hcount : (ofString source).items.length ≤ source.toList.length + 1 :=
    length_items_le (ofString source)
  refine ⟨ts, last, hitems, ?_, fun t ht => (hlexes.inner t ht).2, ?_⟩
  · simpa [hitems] using hcount
  · cases last with
    | error => trivial
    | ok t =>
      rw [hlexes.eq_eof]
      rfl

/-- Unfinished texts are read to their end and numbers to theirs, half of an operator by itself, and
an escape up to the character that is no digit, or through all its digits. -/
example : ["\x27abc", "1.2.3 ", "=x", "\x22\\x4g\x22", "\x27\\777\x27", "#"].map
    (fun source => (ofString source).call.2.place.position) = [4, 5, 1, 4, 5, 0] := by
  decide +kernel

end Lexer
end Formula
