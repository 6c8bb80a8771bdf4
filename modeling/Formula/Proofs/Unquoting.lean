import Formula.Proofs.Spelling
import Formula.Text.Quoted

/-! Printed quotations read back. Between double quotes a printed text has one way of being read, so
no two texts are printed alike, whatever is printed behind them. -/
namespace Formula.Text

/-- The hexadecimal digits of a number are digits that stand for it. -/
theorem digits_toDigits (n : Nat) :
    (∀ d ∈ Nat.toDigits 16 n, (digitValue? 16 d).isSome = true) ∧
      digitsValue 16 (Nat.toDigits 16 n) = n := by
  induction n using Nat.strongRecOn with
  | _ n ih =>
  by_cases hn : n < 16
  · have hdigit : digitValue? 16 n.digitChar = some n := by
      simpa [Nat.mod_eq_of_lt hn] using digitValue?_digitChar n
    have hvalue := digitsValue_append_singleton 16 [] n.digitChar
    rw [List.nil_append, hdigit] at hvalue
    rw [Nat.toDigits_of_lt_base hn]
    exact ⟨by simp [hdigit], hvalue.trans (Nat.zero_add n)⟩
  · obtain ⟨hdigits, hvalue⟩ := ih (n / 16) (by omega)
    rw [Nat.toDigits_of_base_le (by decide) (by omega)]
    constructor
    · intro d hd
      rcases List.mem_append.mp hd with hd | hd
      · exact hdigits d hd
      · obtain rfl := List.mem_singleton.mp hd
        simp [digitValue?_digitChar]
    · rw [digitsValue_append_singleton, hvalue, digitValue?_digitChar, Option.getD_some,
        Nat.div_add_mod']

/-- The character that a printed text begins with, and what is behind it. -/
def unescape : List Char → Char × List Char
  | [] => ('\x00', [])
  | '\\' :: '0' :: cs => ('\x00', cs)
  | '\\' :: 't' :: cs => ('\t', cs)
  | '\\' :: 'n' :: cs => ('\n', cs)
  | '\\' :: 'r' :: cs => ('\r', cs)
  | '\\' :: 'u' :: '\x7b' :: cs =>
    (Char.ofNat (digitsValue 16 (cs.takeWhile (· ≠ '\x7d'))), (cs.dropWhile (· ≠ '\x7d')).tail)
  | '\\' :: c :: cs => (c, cs)
  | c :: cs => (c, cs)

section Reading

variable {c : Char} {cs ds tail rest : List Char}

theorem unescape_code (c : Char) (tail : List Char) :
    unescape ('\\' :: 'u' :: '\x7b' :: (Nat.toDigits 16 c.toNat ++ '\x7d' :: tail)) =
      (c, tail) := by
  obtain ⟨hdigits, hvalue⟩ := digits_toDigits c.toNat
  have hinside : ∀ d ∈ Nat.toDigits 16 c.toNat, decide (d ≠ '\x7d') = true := by
    intro d hd
    rw [decide_eq_true_iff]
    rintro rfl
    cases hdigits _ hd
  rw [unescape, List.takeWhile_append_of_pos hinside, List.dropWhile_append_of_pos hinside]
  simp [hvalue]

/-- A printed character is read as itself. -/
theorem unescape_escape (c : Char) (tail : List Char) :
    unescape (escape '\x22' c ++ tail) = (c, tail) := by
  unfold escape
  split_ifs with h0 ht hn hr hmark hcode
  · rw [h0]
    rfl
  · rw [ht]
    rfl
  · rw [hn]
    rfl
  · rw [hr]
    rfl
  · rcases hmark with rfl | rfl <;> rfl
  · simpa using unescape_code c tail
  · rw [not_or] at hmark
    simp [unescape, hmark.1]

/-- No printed character begins with a quote. -/
theorem exists_escape_eq_cons (c : Char) :
    ∃ first rest, escape '\x22' c = first :: rest ∧ first ≠ '\x22' := by
  unfold escape
  split_ifs with h0 ht hn hr hmark hcode
  all_goals first
    | exact ⟨_, _, rfl, by decide⟩
    | exact ⟨_, _, rfl, fun h => hmark (.inr h)⟩

theorem flatMap_escape_inj
    (h : cs.flatMap (escape '\x22') ++ '\x22' :: rest =
      ds.flatMap (escape '\x22') ++ '\x22' :: tail) : cs = ds ∧ rest = tail := by
  induction cs generalizing ds with
  | nil =>
    cases ds with
    | nil => simpa using h
    | cons d ds =>
      obtain ⟨first, more, htext, hfirst⟩ := exists_escape_eq_cons d
      simp only [List.flatMap_cons, htext] at h
      exact absurd (List.cons.inj h).1.symm hfirst
  | cons c cs ih =>
    cases ds with
    | nil =>
      obtain ⟨first, more, htext, hfirst⟩ := exists_escape_eq_cons c
      simp only [List.flatMap_cons, htext] at h
      exact absurd (List.cons.inj h).1 hfirst
    | cons d ds =>
      rw [List.flatMap_cons, List.flatMap_cons, List.append_assoc, List.append_assoc] at h
      have hread := congrArg unescape h
      rw [unescape_escape, unescape_escape] at hread
      obtain ⟨rfl, hbehind⟩ := Prod.mk.inj hread
      obtain ⟨rfl, rfl⟩ := ih hbehind
      exact ⟨rfl, rfl⟩

/-- A quotation determines the text that it shows and where it ends. -/
theorem quoted_append_inj (h : quoted '\x22' cs ++ rest = quoted '\x22' ds ++ tail) :
    cs = ds ∧ rest = tail := by
  simp only [quoted, List.cons_append, List.append_assoc, List.nil_append] at h
  exact flatMap_escape_inj (List.cons.inj h).2

end Reading

end Formula.Text
