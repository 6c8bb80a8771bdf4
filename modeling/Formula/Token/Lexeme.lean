import Formula.Decimal.Numeral
import Formula.Text.Blank
import Formula.Text.Letter
import Formula.Token
import Formula.Token.Escape

/-!
Lexemes: the tokens as they stand in front of a text, without regard to where that text stands in
a source. A lexeme and the text behind it make up the text that was read.
-/

namespace Formula

inductive ScanProblem where
  | illegalCharacter (c : Char)
  | unterminated (quote : Char)
  | badEscape (problem : EscapeProblem)
  | badNumber (literal : List Char)
  /-- One character of an operator that has it twice. -/
  | halfPair (c : Char)
  deriving DecidableEq, Repr

structure Lexeme where
  kind : Kind
  value : Option Value
  text : List Char
  rest : List Char
  deriving DecidableEq, Repr

namespace Lexeme

/-- The operators and parentheses of one character that no other operator begins with. -/
def single? (c : Char) : Option Kind :=
  if c = '(' then some .openParen
  else if c = ')' then some .closeParen
  else if c = '+' then some .plus
  else if c = '-' then some .minus
  else if c = '*' then some .times
  else if c = '/' then some .divide
  else if c = '%' then some .modulo
  else none

/-- The operators that an equals sign may extend: the kind with it and the kind without. -/
def extensible? (c : Char) : Option (Kind × Kind) :=
  if c = '<' then some (.lessEqual, .less)
  else if c = '>' then some (.greaterEqual, .greater)
  else if c = '!' then some (.notEqual, .not)
  else none

def double? (c : Char) : Option Kind :=
  if c = '=' then some .equal
  else if c = '&' then some .and
  else if c = '|' then some .or
  else none

def startsWord (c : Char) : Bool := Text.isLetter c || c = '_'

def inWord (c : Char) : Bool := Text.isLetter c || c.isDigit || c = '_'

def inNumber (c : Char) : Bool := c.isDigit || c = '.'

/-- The value that a word carries: its truth value or its name. -/
def wordValue (word : String) : Value :=
  if Kind.ofWord word = .bool then .bool (word = "true") else .text word

def word (cs : List Char) : Lexeme :=
  let text := cs.takeWhile inWord
  let name := String.ofList text
  ⟨.ofWord name, some (wordValue name), text, cs.dropWhile inWord⟩

/-- The number that a run of digits and points stands for: with a point a float, without one an
integer of sixty-four bits. -/
def numeral? (text : List Char) : Option (Kind × Value) :=
  if '.' ∈ text then
    (Decimal.plain? text).map fun d => (.float, .float (d.toFloat false))
  else
    ((natural? text).filter (· < Nat.pow 2 63)).map fun n => (.integer, .integer (Int64.ofNat n))

def number (cs : List Char) : Except (Fault ScanProblem) Lexeme :=
  let text := cs.takeWhile inNumber
  match numeral? text with
  | some (kind, value) => .ok ⟨kind, some value, text, cs.dropWhile inNumber⟩
  | none => .error ⟨.badNumber text, [], text, text⟩

structure Body where
  decoded : List Char
  text : List Char
  rest : List Char
  deriving DecidableEq, Repr

def Body.push (c : Char) (text : List Char) (b : Body) : Body :=
  { b with decoded := c :: b.decoded, text := text ++ b.text }

/-- Reads a string behind its opening quote. The error is `none` if the closing quote is missing. -/
def body (quote : Char) (cs : List Char) : Except (Option (Fault ScanProblem)) Body :=
  match cs with
  | [] => .error none
  | c :: cs =>
    if c = quote then .ok ⟨[], [c], cs⟩
    else if c = '\\' then
      match h : Escape.decode cs with
      | .error f => .error (some ⟨.badEscape f.problem, f.before, f.marked, f.read⟩)
      | .ok e =>
        have := Escape.length_rest_le_of_decode h
        match body quote e.rest with
        | .ok b => .ok (b.push e.char e.text)
        | .error f => .error (f.map (Fault.behind e.text))
    else
      match body quote cs with
      | .ok b => .ok (b.push c [c])
      | .error f => .error (f.map (Fault.behind [c]))
termination_by cs.length
decreasing_by all_goals simp only [List.length_cons]; omega

def string (quote : Char) (cs : List Char) : Except (Fault ScanProblem) Lexeme :=
  match body quote cs with
  | .ok b => .ok ⟨.string, some (.text (String.ofList b.decoded)), quote :: b.text, b.rest⟩
  | .error none => .error ⟨.unterminated quote, [], quote :: cs, quote :: cs⟩
  | .error (some f) => .error (f.behind [quote])

/-- The quote of strings without escapes. -/
def rawQuote : Char := '\x60'

def rawString (cs : List Char) : Except (Fault ScanProblem) Lexeme :=
  let text := cs.takeWhile (· ≠ rawQuote)
  match cs.dropWhile (· ≠ rawQuote) with
  | [] => .error ⟨.unterminated rawQuote, [], rawQuote :: cs, rawQuote :: cs⟩
  | c :: rest => .ok ⟨.string, some (.text (String.ofList text)), rawQuote :: text ++ [c], rest⟩

/-- The lexeme in front of a text that begins with `c`, as long as it can be. -/
def scan (c : Char) (cs : List Char) : Except (Fault ScanProblem) Lexeme :=
  match single? c, extensible? c, double? c with
  | some kind, _, _ => .ok ⟨kind, none, [c], cs⟩
  | none, some (long, short), _ =>
    match cs with
    | '=' :: rest => .ok ⟨long, none, [c, '='], rest⟩
    | _ => .ok ⟨short, none, [c], cs⟩
  | none, none, some kind =>
    if cs.head? = some c then .ok ⟨kind, none, [c, c], cs.tail⟩
    else .error ⟨.halfPair c, [], [c], [c]⟩
  | none, none, none =>
    if c = '\x22' ∨ c = '\x27' then string c cs
    else if c = rawQuote then rawString cs
    else if startsWord c then .ok (word (c :: cs))
    else if inNumber c then number (c :: cs)
    else .error ⟨.illegalCharacter c, [], [c], []⟩

end Lexeme

namespace Lexeme

theorem body_text_append_rest {quote : Char} {cs : List Char} {b : Body}
    (h : body quote cs = .ok b) : b.text ++ b.rest = cs := by
  fun_induction body quote cs generalizing b with
  | case1 => simp at h
  | case2 cs =>
    simp only [Except.ok.injEq] at h
    simp [← h]
  | case3 => simp at h
  | case4 cs e he hle b' hb' hq ih =>
    simp only [Except.ok.injEq] at h
    simp only [← h, Body.push, List.append_assoc, ih hb']
    exact Escape.decode_text_append_rest he
  | case5 => simp at h
  | case6 c cs hq hc b' hb' ih =>
    simp only [Except.ok.injEq] at h
    simp [← h, Body.push, ih hb']
  | case7 => simp at h

/-- A lexeme and the text behind it are the text that was read. -/
theorem scan_text_append_rest {c : Char} {cs : List Char} {x : Lexeme}
    (h : scan c cs = .ok x) : x.text ++ x.rest = c :: cs := by
  unfold scan at h
  split at h
  · simp only [Except.ok.injEq] at h
    simp [← h]
  · split at h <;>
    · simp only [Except.ok.injEq] at h
      simp [← h]
  · split at h
    · next hc =>
      simp only [Except.ok.injEq] at h
      cases cs with
      | nil => simp at hc
      | cons d ds => simp_all [← h]
    · simp at h
  · split at h
    · unfold string at h
      split at h
      · next b hb =>
        simp only [Except.ok.injEq] at h
        simp [← h, body_text_append_rest hb]
      · simp at h
      · simp at h
    · split at h
      · next hraw =>
        simp only [rawString] at h
        split at h
        · simp at h
        · next d rest hrest =>
          simp only [Except.ok.injEq] at h
          have hsum := List.takeWhile_append_dropWhile (p := (· ≠ rawQuote)) (l := cs)
          rw [hrest] at hsum
          simp only [← h, hraw, List.cons_append, List.append_assoc, List.nil_append]
          rw [hsum]
      · split at h
        · simp only [word, Except.ok.injEq] at h
          simp only [← h]
          exact List.takeWhile_append_dropWhile
        · split at h
          · simp only [number] at h
            split at h
            · simp only [Except.ok.injEq] at h
              simp only [← h]
              exact List.takeWhile_append_dropWhile
            · simp at h
          · simp at h

/-- A lexeme takes at least one character. -/
theorem text_ne_nil_of_scan {c : Char} {cs : List Char} {x : Lexeme}
    (h : scan c cs = .ok x) : x.text ≠ [] := by
  unfold scan at h
  split at h
  · simp only [Except.ok.injEq] at h
    simp [← h]
  · split at h <;>
    · simp only [Except.ok.injEq] at h
      simp [← h]
  · split at h
    · simp only [Except.ok.injEq] at h
      simp [← h]
    · simp at h
  · split at h
    · unfold string at h
      split at h
      · simp only [Except.ok.injEq] at h
        simp [← h]
      · simp at h
      · simp at h
    · split at h
      · simp only [rawString] at h
        split at h
        · simp at h
        · simp only [Except.ok.injEq] at h
          simp [← h]
      · split at h
        · next hword =>
          simp only [word, Except.ok.injEq] at h
          have hin : inWord c = true := by
            simp only [startsWord, Bool.or_eq_true] at hword
            simp only [inWord, Bool.or_eq_true]
            exact hword.imp_left Or.inl
          simp [← h, hin]
        · split at h
          · next hnumber =>
            simp only [number] at h
            split at h
            · simp only [Except.ok.injEq] at h
              simp [← h, hnumber]
            · simp at h
          · simp at h

theorem length_rest_lt_of_scan {c : Char} {cs : List Char} {x : Lexeme}
    (h : scan c cs = .ok x) : x.rest.length < (c :: cs).length := by
  have hsum := congrArg List.length (scan_text_append_rest h)
  have hpos := List.length_pos_iff.mpr (text_ne_nil_of_scan h)
  simp only [List.length_append] at hsum
  omega

end Lexeme
end Formula
