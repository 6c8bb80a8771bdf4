import Formula.Text.Digit

/-!
Escapes inside quoted strings: a backslash with one character of a fixed list, or with the digits
of a character's code in one of four families.
-/

namespace Formula

inductive EscapeProblem where
  | unknown
  | unterminated
  | illegalDigit (c : Char)
  | invalidCode (code : UInt32)
  deriving DecidableEq, Repr

/-- A fault in a text: what it is, the text before the faulty stretch, that stretch, and the text
that had been read when the fault was found. -/
structure Fault (α : Type) where
  problem : α
  before : List Char
  marked : List Char
  read : List Char
  deriving DecidableEq, Repr

def Fault.behind {α : Type} (text : List Char) (f : Fault α) : Fault α :=
  { f with before := text ++ f.before, read := text ++ f.read }

structure EscapeFamily where
  digits : Nat
  base : Nat
  limit : Nat
  deriving DecidableEq, Repr

structure Escape where
  char : Char
  text : List Char
  rest : List Char
  deriving DecidableEq, Repr

namespace EscapeFamily

def octal : EscapeFamily := ⟨3, 8, 0xFF⟩

def byte : EscapeFamily := ⟨2, 16, 0xFF⟩

def short : EscapeFamily := ⟨4, 16, 0x10FFFF⟩

def long : EscapeFamily := ⟨8, 16, 0x10FFFF⟩

def isDigit (f : EscapeFamily) (c : Char) : Bool := (Text.digitValue? f.base c).isSome

/-- Appends a digit to a code, in words of thirty-two bits. -/
def push (f : EscapeFamily) (code : UInt32) (c : Char) : UInt32 :=
  code * UInt32.ofNat f.base + UInt32.ofNat ((Text.digitValue? f.base c).getD 0)

def code (f : EscapeFamily) (digits : List Char) : UInt32 := digits.foldl f.push 0

/-- Whether a code lies within the family's limit and is not half of a surrogate pair. -/
def allows (f : EscapeFamily) (code : UInt32) : Bool :=
  code.toNat ≤ f.limit && !(0xD800 ≤ code && code < 0xE000)

def char? (code : UInt32) : Option Char :=
  if h : code.isValidChar then some ⟨code, h⟩ else none

/-- Decodes the digits of an escape that begins with `opening`. A fault is marked up to the
character behind the last digit that was read. -/
def decode (f : EscapeFamily) (opening cs : List Char) : Except (Fault EscapeProblem) Escape :=
  let digits := (cs.take f.digits).takeWhile f.isDigit
  let rest := cs.drop digits.length
  let fail (problem : EscapeProblem) : Except (Fault EscapeProblem) Escape :=
    .error ⟨problem, [], opening ++ digits ++ rest.take 1, opening ++ digits⟩
  if digits.length = f.digits then
    if f.allows (f.code digits) then
      match char? (f.code digits) with
      | some c => .ok ⟨c, opening ++ digits, rest⟩
      | none => fail (.invalidCode (f.code digits))
    else fail (.invalidCode (f.code digits))
  else match rest with
    | [] => fail .unterminated
    | c :: _ => fail (.illegalDigit c)

end EscapeFamily

namespace Escape

def simple? (c : Char) : Option Char :=
  if c = 'a' then some '\x07'
  else if c = 'b' then some '\x08'
  else if c = 'f' then some '\x0c'
  else if c = 'n' then some '\n'
  else if c = 'r' then some '\r'
  else if c = 't' then some '\t'
  else if c = 'v' then some '\x0b'
  else if c = '\\' ∨ c = '\x27' ∨ c = '\x22' then some c
  else none

def family? (c : Char) : Option EscapeFamily :=
  if c = 'x' then some .byte
  else if c = 'u' then some .short
  else if c = 'U' then some .long
  else none

/-- Decodes the escape whose backslash stands in front of a text. -/
def decode (cs : List Char) : Except (Fault EscapeProblem) Escape :=
  match cs with
  | [] => .error ⟨.unterminated, [], ['\\'], ['\\']⟩
  | c :: rest =>
    match simple? c, family? c with
    | some char, _ => .ok ⟨char, ['\\', c], rest⟩
    | none, some f => f.decode ['\\', c] rest
    | none, none =>
      if EscapeFamily.octal.isDigit c then EscapeFamily.octal.decode ['\\'] cs
      else .error ⟨.unknown, [], ['\\', c], ['\\']⟩

end Escape

namespace EscapeFamily

theorem decode_text_append_rest {f : EscapeFamily} {opening cs : List Char} {e : Escape}
    (h : f.decode opening cs = .ok e) : e.text ++ e.rest = opening ++ cs := by
  have hdigits : (cs.take f.digits).takeWhile f.isDigit ++
      cs.drop ((cs.take f.digits).takeWhile f.isDigit).length = cs :=
    List.prefix_iff_eq_append.mp ((List.takeWhile_prefix f.isDigit).trans (List.take_prefix _ _))
  simp only [decode] at h
  split at h
  · split at h
    · split at h
      · simp only [Except.ok.injEq] at h
        simp only [← h, List.append_assoc, hdigits]
      · simp at h
    · simp at h
  · split at h <;> simp at h

theorem opening_prefix_of_decode {f : EscapeFamily} {opening cs : List Char} {e : Escape}
    (h : f.decode opening cs = .ok e) : ∃ digits, e.text = opening ++ digits := by
  simp only [decode] at h
  split at h
  · split at h
    · split at h
      · simp only [Except.ok.injEq] at h
        exact ⟨_, by rw [← h]⟩
      · simp at h
    · simp at h
  · split at h <;> simp at h

end EscapeFamily

namespace Escape

/-- A decoded escape and the text behind it are the text that was read. -/
theorem decode_text_append_rest {cs : List Char} {e : Escape} (h : decode cs = .ok e) :
    e.text ++ e.rest = '\\' :: cs := by
  unfold decode at h
  split at h
  · simp at h
  · split at h
    · simp only [Except.ok.injEq] at h
      simp [← h]
    · simpa using EscapeFamily.decode_text_append_rest h
    · split at h
      · simpa using EscapeFamily.decode_text_append_rest h
      · simp at h

theorem text_ne_nil_of_decode {cs : List Char} {e : Escape} (h : decode cs = .ok e) :
    e.text ≠ [] := by
  unfold decode at h
  split at h
  · simp at h
  · split at h
    · simp only [Except.ok.injEq] at h
      simp [← h]
    · obtain ⟨digits, hdigits⟩ := EscapeFamily.opening_prefix_of_decode h
      simp [hdigits]
    · split at h
      · obtain ⟨digits, hdigits⟩ := EscapeFamily.opening_prefix_of_decode h
        simp [hdigits]
      · simp at h

/-- What is left behind an escape is no longer than the text behind its backslash. -/
theorem length_rest_le_of_decode {cs : List Char} {e : Escape} (h : decode cs = .ok e) :
    e.rest.length ≤ cs.length := by
  have hsum := congrArg List.length (decode_text_append_rest h)
  have hpos := List.length_pos_iff.mpr (text_ne_nil_of_decode h)
  simp only [List.length_append, List.length_cons] at hsum
  omega

end Escape
end Formula
