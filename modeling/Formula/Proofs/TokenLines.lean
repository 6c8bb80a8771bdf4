import Formula.CommandLine.Run
import Formula.Proofs.Legibility
import Formula.Proofs.Slices

/-! Printed token streams. Nothing that is printed of a token breaks its line: digits and names do
not, and quotations show line ends as escapes. So there are as many lines as tokens. -/
namespace Formula

def IsLine (s : String) : Prop := ∃ text : String, s = text ++ "\n" ∧ '\n' ∉ text.toList

section Texts

theorem newline_notMem_toDigits (n : Nat) : '\n' ∉ Nat.toDigits 10 n := fun h =>
  absurd (Nat.isDigit_of_mem_toDigits (by decide) (by decide) h) (by decide)

theorem newline_notMem_repr (n : Nat) : '\n' ∉ (Nat.repr n).toList := by
  rw [Nat.toList_repr]
  exact newline_notMem_toDigits n

theorem newline_notMem_integerText (n : Int64) : '\n' ∉ (Value.integerText n).toList := by
  unfold Value.integerText
  cases n.toInt with
  | ofNat m => exact newline_notMem_repr m
  | negSucc m => simpa [Int.repr] using newline_notMem_toDigits (m + 1)

theorem Decimal.newline_notMem_positional (d : Decimal) (point : Bool) :
    '\n' ∉ d.positional point := by
  have hdigits : '\n' ∉ d.digitChars := newline_notMem_toDigits d.digits
  have hpadded (n : Nat) : '\n' ∉ List.replicate n '0' ++ d.digitChars := by simp [hdigits]
  unfold positional
  dsimp only
  split
  · cases point <;> simp [hdigits]
  · rw [List.mem_append, List.mem_cons, not_or, not_or]
    exact ⟨fun h => hpadded _ (List.mem_of_mem_take h), by decide,
      fun h => hpadded _ (List.mem_of_mem_drop h)⟩

theorem newline_notMem_literalText (x : Float) : '\n' ∉ (Value.literalLayout.text x).toList := by
  unfold Layout.text
  split
  · split
    · decide
    · split <;> decide
  · have hdigits (d : Decimal) : '\n' ∉ Value.literalLayout.digits d :=
      d.newline_notMem_positional true
    dsimp only
    rw [String.toList_ofList]
    split
    · exact List.not_mem_cons_of_ne_of_not_mem (by decide) (hdigits _)
    · exact hdigits _

theorem Text.newline_notMem_escape (c : Char) : '\n' ∉ escape '\x22' c := by
  have hdigits : '\n' ∉ Nat.toDigits 16 c.toNat := fun h =>
    absurd ((digits_toDigits c.toNat).1 _ h) (by decide)
  by_cases hc : c = '\n'
  · subst hc
    decide
  · unfold escape
    repeat' split
    all_goals simp [Ne.symm hc, hdigits]

theorem Text.newline_notMem_quotedString (s : String) : '\n' ∉ (quotedString s).toList := by
  simp [quotedString, quoted, newline_notMem_escape]

theorem Value.newline_notMem_literal (v : Value) : '\n' ∉ v.literal.toList := by
  cases v with
  | bool b => cases b <;> decide
  | integer n => exact newline_notMem_integerText n
  | float x => exact newline_notMem_literalText x
  | text s => exact Text.newline_notMem_quotedString s

theorem Kind.newline_notMem (k : Kind) :
    '\n' ∉ k.heading.toList ∧ '\n' ∉ k.display.toList := by
  cases k <;> decide

end Texts

section Tokens

variable {source : String} {t : Token}

/-- Of all that is printed of a token, only a name could break the line. -/
theorem Token.newline_notMem_display
    (hname : ∀ name, t.kind = .identifier → t.value = some (.text name) → '\n' ∉ name.toList) :
    '\n' ∉ t.display.toList := by
  have hheading : ∀ k : Kind, '\n' ∉ k.heading.toList := fun k => k.newline_notMem.1
  unfold display
  split
  · simp [hheading]
  · simp [hheading, Kind.newline_notMem]
  · next name hkind hvalue => simp [hheading, hname name hkind hvalue]
  · simp [hheading, Value.newline_notMem_literal]

theorem Lexeme.newline_notMem_name {c : Char} {cs : List Char} {x : Lexeme} {name : String}
    (h : scan c cs = .ok x) (kind : x.kind = .identifier) (value : x.value = some (.text name)) :
    '\n' ∉ name.toList := by
  have hcontent : x.content = ⟨.identifier, some (.text name)⟩ := by
    simp only [content, Token.content, Lexeme.at, kind, value]
    rfl
  have hwordy := wordy_of_scan h
  rw [hcontent] at hwordy
  intro hmem
  have hstring : Kind.identifier ≠ .string := by decide
  have hfloat : Kind.identifier ≠ .float := by decide
  have hword := hwordy (Option.some_ne_none _) hstring hfloat '\n' hmem
  exact absurd hword (by decide)

theorem newline_notMem_display (h : t ∈ (tokenize source).1) : '\n' ∉ t.display.toList := by
  refine Token.newline_notMem_display fun name hkind hvalue => ?_
  rcases exists_lexeme_of_tokenize h with ⟨front, c, rest, x, -, hscan, rfl⟩ | rfl
  · exact Lexeme.newline_notMem_name hscan hkind hvalue
  · cases hkind

/-- Every token of a source is printed on one line. -/
theorem isLine_tokenLine (h : t ∈ (tokenize source).1) : IsLine (CommandLine.tokenLine t) := by
  have hdisplay := newline_notMem_display h
  unfold CommandLine.tokenLine
  split
  · exact ⟨t.display, rfl, hdisplay⟩
  · refine ⟨t.display ++ " @" ++ Nat.repr t.position, rfl, ?_⟩
    have hposition := newline_notMem_repr t.position
    simp only [String.toList_append, List.mem_append, not_or]
    exact ⟨⟨hdisplay, by decide⟩, hposition⟩

/-- Scanning gives the tokens in front of the first fault, and the fault. -/
theorem items_eq_tokenize (source : String) : (Lexer.ofString source).items =
    (tokenize source).1.map .ok ++ (tokenize source).2.toList.map .error := by
  obtain ⟨ts, last, hlexes⟩ := exists_lexes .start source.toList
  rw [tokenize, Lexer.ofString, hlexes.items_eq]
  cases last with
  | error e => simp [Lexer.split_of_error]
  | ok t => simp [Lexer.split_of_ok]

end Tokens
end Formula
