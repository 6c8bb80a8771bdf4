import Formula.Json.Number
import Formula.Text.Digit

/-!
Reading JSON text. Every reader takes the text from where it stands and gives back the rest, which
is shorter; containers may nest to a limited depth.
-/

namespace Formula.Json

/-- A rest of a text that is shorter than the text. -/
abbrev Shorter (cs : List Char) := { rest : List Char // rest.length < cs.length }

def isBlank (c : Char) : Bool := c = ' ' || c = '\t' || c = '\n' || c = '\r'

def skipBlanks (cs : List Char) : List Char := cs.dropWhile isBlank

def codeUnit? (a b c d : Char) : Option Nat := do
  pure ((((← Text.hexValue? a) * 16 + (← Text.hexValue? b)) * 16 + (← Text.hexValue? c)) * 16 + (← Text.hexValue? d))

def surrogatePair? (high low : Nat) : Option Char :=
  if 0xD800 ≤ high ∧ high < 0xDC00 ∧ 0xDC00 ≤ low ∧ low < 0xE000 then
    some (Char.ofNat (0x10000 + (high - 0xD800) * 0x400 + (low - 0xDC00)))
  else none

/-- The character that a single unit stands for; half of a surrogate pair stands for none. -/
def scalar? (unit : Nat) : Option Char :=
  if 0xD800 ≤ unit ∧ unit < 0xE000 then none else some (Char.ofNat unit)

/-- Reads what follows a backslash inside a string. -/
def escaped? : List Char → Option (Char × List Char)
  | 'u' :: a :: b :: c :: d :: cs => do
    let unit ← codeUnit? a b c d
    match scalar? unit, cs with
    | some char, _ => pure (char, cs)
    | none, '\\' :: 'u' :: e :: f :: g :: h :: rest =>
      pure (← surrogatePair? unit (← codeUnit? e f g h), rest)
    | none, _ => none
  | c :: cs =>
    if c = '\x22' ∨ c = '\\' ∨ c = '/' then some (c, cs)
    else if c = 'b' then some ('\x08', cs)
    else if c = 'f' then some ('\x0c', cs)
    else if c = 'n' then some ('\n', cs)
    else if c = 'r' then some ('\r', cs)
    else if c = 't' then some ('\t', cs)
    else none
  | [] => none

theorem length_lt_of_escaped? {cs rest : List Char} {c : Char}
    (h : escaped? cs = some (c, rest)) : rest.length < cs.length := by
  unfold escaped? at h
  split at h
  · simp only [Option.bind_eq_bind, Option.bind_eq_some_iff] at h
    obtain ⟨unit, -, h⟩ := h
    split at h
    · simp only [Option.pure_def, Option.some.injEq, Prod.mk.injEq] at h
      simp only [← h.2, List.length_cons]
      omega
    · simp only [Option.pure_def, Option.bind_eq_some_iff, Option.some.injEq, Prod.mk.injEq] at h
      obtain ⟨_, -, _, -, -, rfl⟩ := h
      simp only [List.length_cons]
      omega
    · simp at h
  · repeat' split at h
    all_goals simp_all
  · simp at h

/-- Reads a string up to its closing quote; control characters stand in it as escapes only. -/
def stringBody? (cs : List Char) : Option (List Char × Shorter cs) :=
  match cs with
  | [] => none
  | c :: cs =>
    if c = '\x22' then some ([], ⟨cs, Nat.lt_succ_self _⟩)
    else if c = '\\' then
      match h : escaped? cs with
      | none => none
      | some (char, rest) =>
        have := length_lt_of_escaped? h
        (stringBody? rest).map fun (chars, ⟨tail, ht⟩) =>
          (char :: chars, ⟨tail, Nat.lt_succ_of_lt (Nat.lt_trans ht this)⟩)
    else if c.toNat < 0x20 then none
    else (stringBody? cs).map fun (chars, ⟨tail, ht⟩) =>
      (c :: chars, ⟨tail, Nat.lt_succ_of_lt ht⟩)
termination_by cs.length

/-- The text after a fixed character in front of it, blanks around that character skipped. -/
def afterMark? (mark : Char) (cs : List Char) : Option (Shorter cs) :=
  match h : skipBlanks cs with
  | [] => none
  | c :: rest =>
    if c = mark then
      some ⟨skipBlanks rest, by
        have hcs := (List.dropWhile_sublist isBlank (l := cs)).length_le
        have hrest := (List.dropWhile_sublist isBlank (l := rest)).length_le
        simp only [skipBlanks] at h ⊢
        rw [h, List.length_cons] at hcs
        omega⟩
    else none

def numberValue? (cs : List Char) : Option (Json × Shorter cs) :=
  match h : numberParts? cs with
  | none => none
  | some (p, rest) => p.number?.map fun n => (.number n, ⟨rest, length_lt_of_numberParts? h⟩)

def name? : (cs : List Char) → Option (Json × Shorter cs)
  | 'n' :: 'u' :: 'l' :: 'l' :: cs => some (.null, ⟨cs, by simp only [List.length_cons]; omega⟩)
  | 't' :: 'r' :: 'u' :: 'e' :: cs =>
    some (.bool true, ⟨cs, by simp only [List.length_cons]; omega⟩)
  | 'f' :: 'a' :: 'l' :: 's' :: 'e' :: cs =>
    some (.bool false, ⟨cs, by simp only [List.length_cons]; omega⟩)
  | _ => none

mutual

/-- Reads the value in front of a text. At most `depth` containers may still be opened. -/
def value? (depth : Nat) (cs : List Char) : Option (Json × Shorter cs) :=
  match cs with
  | '\x22' :: cs => do
    let (chars, ⟨rest, h⟩) ← stringBody? cs
    pure (.string (String.ofList chars), ⟨rest, by simp only [List.length_cons]; omega⟩)
  | '[' :: cs =>
    if depth = 0 then none
    else
      have hle : (skipBlanks cs).length ≤ cs.length := (List.dropWhile_sublist isBlank).length_le
      match afterMark? ']' (skipBlanks cs) with
      | some ⟨rest, h⟩ => some (.array [], ⟨rest, by simp only [List.length_cons]; omega⟩)
      | none => do
        let (elements, ⟨rest, h⟩) ← elements? (depth - 1) (skipBlanks cs)
        pure (.array elements, ⟨rest, by simp only [List.length_cons]; omega⟩)
  | '\x7b' :: cs =>
    if depth = 0 then none
    else
      have hle : (skipBlanks cs).length ≤ cs.length := (List.dropWhile_sublist isBlank).length_le
      match afterMark? '\x7d' (skipBlanks cs) with
      | some ⟨rest, h⟩ => some (.object [], ⟨rest, by simp only [List.length_cons]; omega⟩)
      | none => do
        let (members, ⟨rest, h⟩) ← members? (depth - 1) (skipBlanks cs)
        pure (.object members, ⟨rest, by simp only [List.length_cons]; omega⟩)
  | cs => (name? cs).orElse fun _ => numberValue? cs
termination_by 2 * cs.length

/-- Reads elements with commas between them, and the closing bracket. -/
def elements? (depth : Nat) (cs : List Char) : Option (List Json × Shorter cs) := do
  let (element, ⟨rest, h⟩) ← value? depth cs
  match afterMark? ',' rest with
  | some ⟨more, hmore⟩ => do
    let (elements, ⟨tail, ht⟩) ← elements? depth more
    pure (element :: elements, ⟨tail, by omega⟩)
  | none => do
    let ⟨tail, ht⟩ ← afterMark? ']' rest
    pure ([element], ⟨tail, by omega⟩)
termination_by 2 * cs.length + 1

/-- Reads members with commas between them, and the closing brace. -/
def members? (depth : Nat) (cs : List Char) : Option (List (String × Json) × Shorter cs) :=
  match cs with
  | '\x22' :: cs => do
    let (key, ⟨afterKey, hkey⟩) ← stringBody? cs
    let ⟨afterColon, hcolon⟩ ← afterMark? ':' afterKey
    let (value, ⟨rest, h⟩) ← value? depth afterColon
    let member := (String.ofList key, value)
    match afterMark? ',' rest with
    | some ⟨more, hmore⟩ => do
      let (members, ⟨tail, ht⟩) ← members? depth more
      pure (member :: members, ⟨tail, by simp only [List.length_cons]; omega⟩)
    | none => do
      let ⟨tail, ht⟩ ← afterMark? '\x7d' rest
      pure ([member], ⟨tail, by simp only [List.length_cons]; omega⟩)
  | _ => none
termination_by 2 * cs.length + 1

end

def depthLimit : Nat := 127

def parse? (s : String) : Option Json :=
  match value? depthLimit (skipBlanks s.toList) with
  | some (j, ⟨rest, _⟩) => if skipBlanks rest = [] then some j else none
  | none => none

def parseObject? (s : String) : Option (List (String × Json)) :=
  match parse? s with
  | some (.object members) => some members
  | _ => none

end Formula.Json
