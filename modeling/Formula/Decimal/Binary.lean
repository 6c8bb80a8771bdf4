/-!
Binary floating-point numbers as exact magnitudes: a float is taken apart into a significand and
an exponent of two, and an exact quotient is rounded to the nearest number of a format, a tie
going to the even significand.
-/

namespace Formula

/-- The magnitude `significand · 2 ^ exponent`. -/
structure Dyadic where
  significand : Nat
  exponent : Int
  deriving DecidableEq, Repr

namespace Dyadic

def numerator (d : Dyadic) : Nat := d.significand * Nat.pow 2 d.exponent.toNat

def denominator (d : Dyadic) : Nat := Nat.pow 2 (-d.exponent).toNat

def isWhole (d : Dyadic) : Bool := d.numerator % d.denominator == 0

end Dyadic

/-- The quotient rounded to the nearest whole number, a tie going to the even one. -/
def divNearest (num den : Nat) : Nat :=
  let quotient := num / den
  let remainder := num % den
  if 2 * remainder < den then quotient
  else if den < 2 * remainder then quotient + 1
  else quotient + quotient % 2

/-- A binary format: the bits of its significands, the least exponent of a last bit, and the biased
exponent that is kept for infinities. -/
structure BinaryFormat where
  precision : Nat
  leastExponent : Int
  top : Nat
  deriving DecidableEq, Repr

namespace BinaryFormat

def double : BinaryFormat := ⟨53, -1074, 2047⟩

def single : BinaryFormat := ⟨24, -149, 255⟩

/-- The pattern of the number of the format nearest to `num / den`; a quotient too large for
the format becomes its infinity. -/
def nearest (f : BinaryFormat) (num den : Nat) : Nat :=
  if num = 0 then 0
  else
    let width : Int := num.log2 - den.log2
    let width :=
      if num * Nat.pow 2 (-width).toNat < den * Nat.pow 2 width.toNat then width else width + 1
    let exponent := max (width - f.precision) f.leastExponent
    let significand :=
      divNearest (num * Nat.pow 2 (-exponent).toNat) (den * Nat.pow 2 exponent.toNat)
    let unit := Nat.pow 2 (f.precision - 1)
    min ((exponent - f.leastExponent).toNat * unit + significand) (f.top * unit)

end BinaryFormat
end Formula

namespace Float

/-- Whether the sign bit is set, as it also is in `-0.0`. -/
def isNegative (x : Float) : Bool := Nat.pow 2 63 ≤ x.toBits.toNat

def magnitude? (x : Float) : Option Formula.Dyadic :=
  let fraction : Nat := x.toBits.toNat % Nat.pow 2 52
  let biased : Nat := x.toBits.toNat / Nat.pow 2 52 % Nat.pow 2 11
  if biased = 2047 then none
  else if biased = 0 then some ⟨fraction, -1074⟩
  else some ⟨Nat.pow 2 52 + fraction, (biased : Int) - 1075⟩

def isWhole (x : Float) : Bool := x.magnitude?.any Formula.Dyadic.isWhole

def nearest (negative : Bool) (num den : Nat) : Float :=
  let bits := Formula.BinaryFormat.double.nearest num den
  Float.ofBits (UInt64.ofNat (if negative then Nat.pow 2 63 + bits else bits))

def ofInt64 (n : Int64) : Float := nearest (n < 0) n.toInt.natAbs 1

/-- The remainder of a division that is truncated towards zero. It is exact and has the sign of the
dividend; a zero divisor or an infinite dividend gives NaN. -/
def truncRem (x y : Float) : Float :=
  match x.magnitude?, y.magnitude? with
  | some a, some b =>
    let exponent := min a.exponent b.exponent
    let dividend := a.significand * Nat.pow 2 (a.exponent - exponent).toNat
    let divisor := b.significand * Nat.pow 2 (b.exponent - exponent).toNat
    if divisor = 0 then 0.0 / 0.0
    else
      let rest : Formula.Dyadic := ⟨dividend % divisor, exponent⟩
      nearest x.isNegative rest.numerator rest.denominator
  | some _, none => if y.isNaN then y else x
  | none, _ => 0.0 / 0.0

end Float
