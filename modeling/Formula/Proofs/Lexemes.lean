import Mathlib.Tactic.ByContra
import Mathlib.Tactic.SplitIfs
import Formula.Proofs.Spelling
import Formula.Token.Lexeme

/-! Lexemes by the way they are written, and lexemes in front of more text. A lexeme looks behind
its own text only for a character that goes on with it. -/
namespace Formula

/-- A text whose first character goes on with no word, number or operator. -/
def Seals (tail : List Char) : Prop :=
  ∀ c ∈ tail.head?, Lexeme.inWord c = false ∧ Lexeme.inNumber c = false ∧ c ≠ '='

namespace Lexeme

def marks : List Char :=
  ['(', ')', '+', '-', '*', '/', '%', '<', '>', '!', '=', '&', '|', '\x22', '\x27', rawQuote]

inductive Reads (c : Char) (cs : List Char) : Lexeme → Prop where
  | single {k : Kind} (first : single? c = some k) : Reads c cs ⟨k, none, [c], cs⟩
  | extended {long short : Kind} {rest : List Char} (first : extensible? c = some (long, short))
      (next : cs = '=' :: rest) : Reads c cs ⟨long, none, [c, '='], rest⟩
  | bare {long short : Kind} (first : extensible? c = some (long, short))
      (next : cs.head? ≠ some '=') : Reads c cs ⟨short, none, [c], cs⟩
  | double {k : Kind} {rest : List Char} (first : double? c = some k) (next : cs = c :: rest) :
      Reads c cs ⟨k, none, [c, c], rest⟩
  | string {x : Lexeme} (first : c = '\x22' ∨ c = '\x27') (read : Lexeme.string c cs = .ok x) :
      Reads c cs x
  | raw {x : Lexeme} (first : c = rawQuote) (read : rawString cs = .ok x) : Reads c cs x
  | word (first : startsWord c = true) : Reads c cs (.word (c :: cs))
  | number {x : Lexeme} (first : inNumber c = true) (read : Lexeme.number (c :: cs) = .ok x) :
      Reads c cs x

section Ways

variable {c : Char} {cs : List Char} {x : Lexeme}

theorem reads_of_scan (h : scan c cs = .ok x) : Reads c cs x := by
  unfold scan at h
  split at h
  · next hsingle =>
    obtain rfl := Except.ok.inj h
    exact .single hsingle
  · next hextensible =>
    split at h
    · obtain rfl := Except.ok.inj h
      exact .extended hextensible rfl
    · next hnext =>
      obtain rfl := Except.ok.inj h
      refine .bare hextensible fun hhead => ?_
      obtain ⟨rest, rfl⟩ := List.head?_eq_some_iff.mp hhead
      exact hnext rest rfl
  · next hdouble =>
    split at h
    · next hhead =>
      obtain ⟨rest, rfl⟩ := List.head?_eq_some_iff.mp hhead
      obtain rfl := Except.ok.inj h
      exact .double hdouble rfl
    · cases h
  · split_ifs at h with hquote hraw hword hnumber
    · exact .string hquote h
    · exact .raw hraw h
    · obtain rfl := Except.ok.inj h
      exact .word hword
    · exact .number hnumber h

theorem single?_ne_illegal (c : Char) : single? c ≠ some .illegal := by
  unfold single?
  split_ifs <;> nofun

theorem ne_illegal_of_extensible? {long short : Kind} (h : extensible? c = some (long, short)) :
    long ≠ .illegal ∧ short ≠ .illegal := by
  unfold extensible? at h
  split_ifs at h <;> obtain ⟨rfl, rfl⟩ := Prod.mk.inj (Option.some.inj h) <;> exact ⟨nofun, nofun⟩

theorem double?_ne_illegal (c : Char) : double? c ≠ some .illegal := by
  unfold double?
  split_ifs <;> nofun

theorem not_startsWord_of_mem_marks (h : c ∈ marks) :
    startsWord c = false ∧ inNumber c = false := by
  have hall : marks.all (fun m => !startsWord m && !inNumber m) = true := by decide
  simpa using List.all_eq_true.mp hall c h

theorem not_startsWord_of_inNumber (h : inNumber c = true) : startsWord c = false := by
  simp only [inNumber, Bool.or_eq_true, decide_eq_true_eq] at h
  rcases h with hdigit | rfl
  · obtain ⟨hlow, hhigh⟩ := Char.isDigit_iff_toNat.mp hdigit
    have hdigits : ∀ n ≤ '9'.toNat, '0'.toNat ≤ n → startsWord (Char.ofNat n) = false := by
      decide
    rw [← Char.ofNat_toNat c]
    exact hdigits c.toNat hhigh hlow
  · decide

/-- A character that begins no operator, parenthesis or string is told by its class alone. -/
theorem scan_of_not_mem_marks (h : c ∉ marks) : scan c cs =
    if startsWord c then .ok (.word (c :: cs))
    else if inNumber c then Lexeme.number (c :: cs)
    else .error ⟨.illegalCharacter c, [], [c], []⟩ := by
  simp only [marks, List.mem_cons, List.not_mem_nil, or_false, not_or] at h
  simp [scan, single?, extensible?, double?, h]

theorem single?_of_extensible? {long short : Kind} (h : extensible? c = some (long, short)) :
    single? c = none := by
  unfold extensible? at h
  split_ifs at h with hc hc hc <;> subst hc <;> rfl

theorem single?_of_double? {k : Kind} (h : double? c = some k) :
    single? c = none ∧ extensible? c = none := by
  unfold double? at h
  split_ifs at h with hc hc hc <;> subst hc <;> exact ⟨rfl, rfl⟩

/-- Every way of beginning with a lexeme is followed. -/
theorem Reads.scan_eq (h : Reads c cs x) : scan c cs = .ok x := by
  cases h with
  | single h => simp only [scan, h]
  | extended h next =>
    subst next
    simp only [scan, h, single?_of_extensible? h]
  | bare h next =>
    simp only [scan, h, single?_of_extensible? h]
    split
    · exact absurd rfl next
    · rfl
  | double h next =>
    obtain ⟨hsingle, hextensible⟩ := single?_of_double? h
    subst next
    simp [scan, h, hsingle, hextensible]
  | string h read =>
    rcases h with rfl | rfl <;> exact read
  | raw h read =>
    subst h
    exact read
  | word h =>
    have hmarks : c ∉ marks := fun hc => by simp [not_startsWord_of_mem_marks hc] at h
    rw [scan_of_not_mem_marks hmarks, if_pos h]
  | number h read =>
    have hmarks : c ∉ marks := fun hc => by simp [not_startsWord_of_mem_marks hc] at h
    rw [scan_of_not_mem_marks hmarks, not_startsWord_of_inNumber h, if_pos h]
    exact read

theorem inWord_of_startsWord (h : startsWord c = true) : inWord c = true := by
  simp only [startsWord, Bool.or_eq_true] at h
  simp only [inWord, Bool.or_eq_true]
  exact h.imp_left Or.inl

theorem classes_of_isBlank (h : Text.isBlank c = true) :
    c ∉ marks ∧ startsWord c = false ∧ inNumber c = false := by
  obtain ⟨r, hr, hlow, hhigh⟩ := Text.exists_mem_of_covers h
  have hblanks : ∀ r ∈ Text.blanks, ∀ k ≤ r.2 - r.1,
      Char.ofNat (r.1 + k) ∉ marks ∧ startsWord (Char.ofNat (r.1 + k)) = false ∧
        inNumber (Char.ofNat (r.1 + k)) = false := by decide +kernel
  have hcode : c = Char.ofNat (r.1 + (c.toNat - r.1)) := by
    rw [Nat.add_sub_cancel' hlow, Char.ofNat_toNat]
  rw [hcode]
  exact hblanks r hr _ (by omega)

/-- No lexeme begins with a blank. -/
theorem not_isBlank_of_scan (h : scan c cs = .ok x) : Text.isBlank c = false := by
  by_contra hblank
  obtain ⟨hmarks, hword, hnumber⟩ := classes_of_isBlank (by simpa using hblank)
  simp [scan_of_not_mem_marks hmarks, hword, hnumber] at h

end Ways
end Lexeme

/-- A text that begins with a blank goes on with no lexeme. -/
theorem seals_of_isBlank {c : Char} (h : Text.isBlank c = true) (tail : List Char) :
    Seals (c :: tail) := by
  obtain ⟨hmarks, hword, hnumber⟩ := Lexeme.classes_of_isBlank h
  rintro d ⟨⟩
  refine ⟨?_, hnumber, ?_⟩
  · simp only [Lexeme.startsWord, Lexeme.inNumber, Bool.or_eq_false_iff] at hword hnumber
    simp [Lexeme.inWord, hword, hnumber]
  · rintro rfl
    exact hmarks (by decide)

theorem takeWhile_append_of_stop {p : Char → Bool} {cs tail : List Char}
    (h : cs.dropWhile p = [] → ∀ c ∈ tail.head?, p c = false) :
    (cs ++ tail).takeWhile p = cs.takeWhile p ∧
      (cs ++ tail).dropWhile p = cs.dropWhile p ++ tail := by
  induction cs with
  | nil =>
    cases tail with
    | nil => exact ⟨rfl, rfl⟩
    | cons d ds =>
      have hd : p d = false := h rfl d rfl
      simp [hd]
  | cons c cs ih =>
    by_cases hc : p c = true
    · have hstep : cs.dropWhile p = [] → ∀ c ∈ tail.head?, p c = false := by
        intro hnil
        exact h (by simp [hc, hnil])
      simp [hc, ih hstep]
    · simp [hc]

/-- A text of which a first part holds what stops at the character behind it. -/
theorem takeWhile_append_cons {p : Char → Bool} {front : List Char} {c : Char}
    (hfront : ∀ d ∈ front, p d = true) (hc : p c = false) (rest : List Char) :
    (front ++ c :: rest).takeWhile p = front ∧ (front ++ c :: rest).dropWhile p = c :: rest := by
  rw [List.takeWhile_append_of_pos hfront, List.dropWhile_append_of_pos hfront]
  simp [hc]

/-- In equal texts the same stands in front of the first stop, and the same behind it. -/
theorem append_cons_inj {p : Char → Bool} {front other : List Char} {c : Char}
    {rest tail : List Char} (hfront : ∀ d ∈ front, p d = true) (hother : ∀ d ∈ other, p d = true)
    (hc : p c = false) (h : front ++ c :: rest = other ++ c :: tail) :
    front = other ∧ rest = tail := by
  obtain ⟨htake, hdrop⟩ := takeWhile_append_cons hfront hc rest
  obtain ⟨htake', hdrop'⟩ := takeWhile_append_cons hother hc tail
  rw [h] at htake hdrop
  exact ⟨htake.symm.trans htake', (List.cons.inj (hdrop.symm.trans hdrop')).2⟩

def Escape.extend (e : Escape) (tail : List Char) : Escape := { e with rest := e.rest ++ tail }

def Lexeme.extend (x : Lexeme) (tail : List Char) : Lexeme := { x with rest := x.rest ++ tail }

section Escapes

variable {cs tail : List Char} {e : Escape}

theorem Escape.decode_append (h : decode cs = .ok e) :
    decode (cs ++ tail) = .ok (e.extend tail) := by
  obtain ⟨hescapes, hread⟩ := decode_eq_ok_iff.mp h
  refine decode_eq_ok_iff.mpr ⟨hescapes, ?_⟩
  rw [extend, ← List.append_assoc, hread, List.cons_append]

end Escapes

namespace Lexeme

variable {quote c : Char} {cs tail : List Char} {x : Lexeme}

/-- A body that begins with an escape goes on behind it. -/
theorem body_of_decode {e : Escape} {b : Body} (hquote : '\\' ≠ quote)
    (hdecode : Escape.decode cs = .ok e) (hbody : body quote e.rest = .ok b) :
    body quote ('\\' :: cs) = .ok (b.push e.char e.text) := by
  rw [body, if_neg hquote, if_pos rfl]
  split
  · next hf => simp [hdecode] at hf
  · next e' he' =>
    obtain rfl := Except.ok.inj (hdecode.symm.trans he')
    rw [hbody]

theorem body_append {b : Body} (h : body quote cs = .ok b) :
    body quote (cs ++ tail) = .ok { b with rest := b.rest ++ tail } := by
  fun_induction body quote cs generalizing b with
  | case1 => cases h
  | case2 cs =>
    obtain rfl := Except.ok.inj h
    rw [List.cons_append, body, if_pos rfl]
  | case3 => cases h
  | case4 cs e he hle b' hb' hq ih =>
    obtain rfl := Except.ok.inj h
    exact body_of_decode hq (Escape.decode_append he) (ih hb')
  | case5 => cases h
  | case6 c cs hq hc b' hb' ih =>
    obtain rfl := Except.ok.inj h
    rw [List.cons_append, body, if_neg hq, if_neg hc, ih hb']
    rfl
  | case7 => cases h

theorem string_append (h : string quote cs = .ok x) :
    string quote (cs ++ tail) = .ok (x.extend tail) := by
  unfold string at h ⊢
  split at h
  · next b hb =>
    obtain rfl := Except.ok.inj h
    rw [body_append hb]
    rfl
  · cases h
  · cases h

theorem rawString_append (h : rawString cs = .ok x) :
    rawString (cs ++ tail) = .ok (x.extend tail) := by
  simp only [rawString] at h ⊢
  split at h
  · cases h
  · next c rest hrest =>
    obtain rfl := Except.ok.inj h
    have hstop : cs.dropWhile (· ≠ rawQuote) = [] →
        ∀ c ∈ tail.head?, decide (c ≠ rawQuote) = false := by
      intro hnil
      cases hrest.symm.trans hnil
    obtain ⟨htake, hdrop⟩ := takeWhile_append_of_stop hstop
    rw [htake, hdrop, hrest]
    rfl

theorem word_append (h : (word cs).rest = [] → Seals tail) :
    word (cs ++ tail) = (word cs).extend tail := by
  obtain ⟨htake, hdrop⟩ := takeWhile_append_of_stop fun hnil c hc => (h hnil c hc).1
  simp only [word, extend, htake, hdrop]

theorem number_append (h : number cs = .ok x) (hseal : x.rest = [] → Seals tail) :
    number (cs ++ tail) = .ok (x.extend tail) := by
  simp only [number] at h ⊢
  split at h
  · next hnumeral =>
    obtain rfl := Except.ok.inj h
    obtain ⟨htake, hdrop⟩ := takeWhile_append_of_stop fun hnil c hc => (hseal hnil c hc).2.1
    rw [htake, hdrop, hnumeral]
    rfl
  · cases h

theorem Reads.append (h : Reads c cs x) (hseal : x.rest = [] → Seals tail) :
    Reads c (cs ++ tail) (x.extend tail) := by
  cases h with
  | single h => exact .single h
  | extended h next => exact .extended h (by rw [next]; rfl)
  | bare h next =>
    refine .bare h ?_
    -- With nothing behind it the operator ends the text, and what follows must not extend it.
    cases cs with
    | nil =>
      intro hhead
      exact (hseal rfl '=' hhead).2.2 rfl
    | cons d ds => exact next
  | double h next => exact .double h (by rw [next]; rfl)
  | string h read => exact .string h (string_append read)
  | raw h read => exact .raw h (rawString_append read)
  | word h =>
    have hword := word_append hseal
    rw [← hword]
    exact .word h
  | number h read => exact .number h (number_append read hseal)

/-- A lexeme is the same in front of more text, if that text does not go on with it. -/
theorem scan_append (h : scan c cs = .ok x) (hseal : x.rest = [] → Seals tail) :
    scan c (cs ++ tail) = .ok (x.extend tail) :=
  ((reads_of_scan h).append hseal).scan_eq

end Lexeme
end Formula
