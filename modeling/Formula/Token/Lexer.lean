import Formula.Token.Lexeme

/-!
Scanning a source into tokens, one after another, until its end or the first fault.
-/

namespace Formula

structure ScanError where
  problem : ScanProblem
  span : Span
  deriving DecidableEq, Repr

namespace EscapeProblem

def message : EscapeProblem → String
  | .unknown => "unknown escape sequence"
  | .unterminated => "escape sequence not terminated"
  | .illegalDigit c => "illegal character " ++ Text.quotedChar c ++ " in escape sequence"
  | .invalidCode code =>
    "escape sequence 0x" ++ String.ofList (Nat.toDigits 16 code.toNat) ++
      " is invalid Unicode code point"

end EscapeProblem

namespace ScanProblem

def literalName (quote : Char) : String :=
  if quote = Lexeme.rawQuote then "raw string" else "string"

def doubled (c : Char) : String := String.ofList [c, c]

def message : ScanProblem → String
  | .illegalCharacter c => "illegal character '" ++ String.singleton c ++ "'"
  | .unterminated quote => literalName quote ++ " literal not terminated"
  | .badEscape problem => problem.message
  | .badNumber literal => "unable to compile numeric value '" ++ String.ofList literal ++ "'"
  | .halfPair c => "expected `" ++ doubled c ++ "`, but only found `" ++ String.singleton c ++ "`"

def help : ScanProblem → String
  | .illegalCharacter c => "remove or correct the character: `" ++ String.singleton c ++ "`"
  | .unterminated quote => "add the closing `" ++ String.singleton quote ++ "`"
  | .badEscape _ =>
    "valid escapes are \\a \\b \\f \\n \\r \\t \\v \\\\ \\' \\\", \\NNN, \\xHH, \\uHHHH and \\UHHHHHHHH"
  | .badNumber _ => "numbers are decimal integers or floats such as `12` and `1.5`"
  | .halfPair c => "use `" ++ doubled c ++ "` here instead"

def labelText : ScanProblem → String
  | .illegalCharacter _ => "this character"
  | .unterminated _ => "this literal never ends"
  | .badEscape _ => "in this escape"
  | .badNumber _ => "this numeric literal"
  | .halfPair _ => "here"

end ScanProblem

def ScanError.diagnostic (e : ScanError) : Diagnostic :=
  ⟨e.problem.message, some e.problem.help, some ⟨e.problem.labelText, e.span⟩⟩

def Fault.at (p : Place) (f : Fault ScanProblem) : ScanError :=
  ⟨f.problem, (p.advance f.before).span f.marked⟩

def Lexeme.at (p : Place) (x : Lexeme) : Token :=
  ⟨x.kind, x.value, p.position, p.span x.text⟩

def Token.eof (p : Place) : Token := ⟨.eof, none, p.position, p.span []⟩

structure Lexer where
  place : Place
  rest : List Char
  /-- Whether the end or a fault has been met. -/
  done : Bool
  deriving DecidableEq, Repr

namespace Lexer

def ofString (source : String) : Lexer := ⟨.start, source.toList, false⟩

/-- One more than the code points left, or zero once scanning is done. -/
def remaining (l : Lexer) : Nat := if l.done then 0 else l.rest.length + 1

/-- The place behind the blanks that come next. -/
def tokenPlace (l : Lexer) : Place := l.place.advance (l.rest.takeWhile Text.isBlank)

/-- The next token or fault, and what is left to scan; nothing once scanning is done. -/
def next? (l : Lexer) : Option (Except ScanError Token × Lexer) :=
  if l.done then none
  else
    match l.rest.dropWhile Text.isBlank with
    | [] => some (.ok (.eof l.tokenPlace), ⟨l.tokenPlace, [], true⟩)
    | c :: cs =>
      match Lexeme.scan c cs with
      | .ok x => some (.ok (x.at l.tokenPlace), ⟨l.tokenPlace.advance x.text, x.rest, false⟩)
      | .error f =>
        some (.error (f.at l.tokenPlace),
          ⟨l.tokenPlace.advance f.read, (c :: cs).drop f.read.length, true⟩)

/-- Every step leaves less to scan. -/
theorem remaining_lt_of_next? {l l' : Lexer} {item : Except ScanError Token}
    (h : l.next? = some (item, l')) : l'.remaining < l.remaining := by
  unfold next? at h
  split at h
  · simp at h
  · next hdone =>
    simp only [remaining, hdone, if_false, Bool.false_eq_true]
    split at h
    · simp only [Option.some.injEq, Prod.mk.injEq] at h
      simp [← h.2]
    · next c cs hrest =>
      have hblank := (List.dropWhile_sublist Text.isBlank (l := l.rest)).length_le
      rw [hrest] at hblank
      split at h
      · next x hx =>
        have hlt := Lexeme.length_rest_lt_of_scan hx
        simp only [Option.some.injEq, Prod.mk.injEq] at h
        simp only [← h.2, Bool.false_eq_true, if_false]
        omega
      · simp only [Option.some.injEq, Prod.mk.injEq] at h
        simp [← h.2]

def items (l : Lexer) : List (Except ScanError Token) :=
  match h : l.next? with
  | none => []
  | some (item, l') =>
    have := remaining_lt_of_next? h
    item :: l'.items
termination_by l.remaining

/-- The tokens in front of the first fault, and that fault if there is one. -/
def split : List (Except ScanError Token) → List Token × Option ScanError
  | [] => ([], none)
  | .ok t :: items => ((split items).1.cons t, (split items).2)
  | .error e :: _ => ([], some e)

end Lexer

def tokenize (source : String) : List Token × Option ScanError :=
  Lexer.split (Lexer.ofString source).items

/-- The tokens of a source, an end token last; or its first fault. -/
def scan (source : String) : Except ScanError (List Token) :=
  match tokenize source with
  | (tokens, none) => .ok tokens
  | (_, some e) => .error e

end Formula
