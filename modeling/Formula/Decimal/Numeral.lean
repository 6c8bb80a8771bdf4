import Formula.Decimal

/-!
Reading decimal numerals: the plain ones of expressions, which are digits with one point among or
beside them, and the wider form with a sign, an exponent and names for infinity and NaN.
-/

namespace Formula

def ofDigits (digits : List Char) : Nat := Nat.ofDigitChars 10 digits 0

def natural? (cs : List Char) : Option Nat :=
  if cs ≠ [] ∧ cs.all Char.isDigit then some (ofDigits cs) else none

namespace Decimal

/-- The digits before and after a point stand for one decimal, as long as there are any. -/
def ofParts? (whole fraction : List Char) : Option Decimal :=
  (natural? (whole ++ fraction)).map fun n => ⟨n, -fraction.length⟩

/-- Reads digits with at most one point, which may stand first or last. -/
def plain? (cs : List Char) : Option Decimal :=
  match cs.dropWhile (· ≠ '.') with
  | [] => ofParts? cs []
  | _ :: fraction => ofParts? (cs.takeWhile (· ≠ '.')) fraction

def signed? (cs : List Char) : Option Int :=
  match cs with
  | '-' :: digits => (natural? digits).map fun n => -(n : Int)
  | '+' :: digits => (natural? digits).map Int.ofNat
  | digits => (natural? digits).map Int.ofNat

def ofChars? (cs : List Char) : Option Decimal :=
  let isMark (c : Char) := c = 'e' || c = 'E'
  match cs.dropWhile (! isMark ·) with
  | [] => plain? cs
  | _ :: exponent => do
    let d ← plain? (cs.takeWhile (! isMark ·))
    let n ← signed? exponent
    pure ⟨d.digits, d.exponent + n⟩

end Decimal

inductive Numeral where
  | nan
  | infinite (negative : Bool)
  | finite (negative : Bool) (magnitude : Decimal)
  deriving DecidableEq, Repr

namespace Numeral

/-- Reads a numeral: an optional sign, then a decimal, `inf`, `infinity` or `nan` in any case. -/
def ofString? (s : String) : Option Numeral :=
  let unsigned (negative : Bool) (cs : List Char) : Option Numeral :=
    let name := cs.map Char.toLower
    if name = ['n', 'a', 'n'] then some .nan
    else if name = ['i', 'n', 'f'] ∨ name = "infinity".toList then some (.infinite negative)
    else (Decimal.ofChars? cs).map (.finite negative)
  match s.toList with
  | '-' :: cs => unsigned true cs
  | '+' :: cs => unsigned false cs
  | cs => unsigned false cs

/-- The pattern of the numeral in a binary format of `width` bits, its sign bit included. -/
def bits (f : BinaryFormat) (width : Nat) : Numeral → Nat
  | .nan => f.top * Nat.pow 2 (f.precision - 1) + Nat.pow 2 (f.precision - 2)
  | .infinite negative =>
    (if negative then Nat.pow 2 (width - 1) else 0) + f.top * Nat.pow 2 (f.precision - 1)
  | .finite negative d => (if negative then Nat.pow 2 (width - 1) else 0) + d.nearestBits f

def toFloat (n : Numeral) : Float := Float.ofBits (UInt64.ofNat (n.bits .double 64))

def toFloat32 (n : Numeral) : Float32 := Float32.ofBits (UInt32.ofNat (n.bits .single 32))

end Numeral
end Formula
