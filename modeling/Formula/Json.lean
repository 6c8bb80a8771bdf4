import Formula.Decimal.Layout
import Formula.Text.Quoted

/-!
JSON values and their compact text. Numbers keep the form in which they were read: a whole number
without a sign, a negative whole number, or a float.
-/

namespace Formula

inductive Json.Number where
  | natural (n : UInt64)
  | negative (n : Int64)
  | float (x : Float)
  deriving Repr

/-- A JSON value; the members of an object stand in their order, repeated keys included. -/
inductive Json where
  | null
  | bool (b : Bool)
  | number (n : Json.Number)
  | string (s : String)
  | array (elements : List Json)
  | object (members : List (String × Json))

namespace Json

/-- Floats keep a point and are written out in full from `0.00001` up to, but not including,
`1e+16`; a tie goes to the even digit. -/
def floatLayout : Layout := ⟨.even, true, some (-5, 15)⟩

def hexDigits : Nat → Nat → List Char
  | 0, _ => []
  | width + 1, n => hexDigits width (n / 16) ++ [Nat.digitChar (n % 16)]

def escape (c : Char) : List Char :=
  if c = '\x22' ∨ c = '\\' then ['\\', c]
  else if c = '\x08' then ['\\', 'b']
  else if c = '\x0c' then ['\\', 'f']
  else if c = '\n' then ['\\', 'n']
  else if c = '\r' then ['\\', 'r']
  else if c = '\t' then ['\\', 't']
  else if c.toNat < 0x20 then ['\\', 'u'] ++ hexDigits 4 c.toNat
  else [c]

def quoted (s : String) : List Char :=
  '\x22' :: s.toList.flatMap escape ++ ['\x22']

/-- The text of a number; the floats that are no numbers are `null`. -/
def Number.text : Number → String
  | .natural n => Nat.repr n.toNat
  | .negative n => Int.repr n.toInt
  | .float x => if x.isFinite then floatLayout.text x else "null"

mutual

/-- The compact text of a value, without blanks. -/
def chars : Json → List Char
  | .null => "null".toList
  | .bool b => (if b then "true" else "false").toList
  | .number n => n.text.toList
  | .string s => quoted s
  | .array elements => '[' :: elementChars elements ++ [']']
  | .object members => '\x7b' :: memberChars members ++ ['\x7d']

def elementChars : List Json → List Char
  | [] => []
  | [element] => element.chars
  | element :: elements => element.chars ++ ',' :: elementChars elements

def memberChars : List (String × Json) → List Char
  | [] => []
  | [(key, value)] => quoted key ++ ':' :: value.chars
  | (key, value) :: members => quoted key ++ ':' :: value.chars ++ ',' :: memberChars members

end

def text (j : Json) : String := String.ofList j.chars

theorem length_hexDigits (width n : Nat) : (hexDigits width n).length = width := by
  induction width generalizing n with
  | zero => rfl
  | succ width ih => simp [hexDigits, ih]

end Json
end Formula
