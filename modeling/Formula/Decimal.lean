import Formula.Decimal.Binary

/-!
Decimal numerals of finite length: their exact value, the float nearest to it, and their digits in
positional and in scientific notation.
-/

namespace Formula

/-- The number `digits · 10 ^ exponent`. -/
structure Decimal where
  digits : Nat
  exponent : Int
  deriving DecidableEq, Repr

namespace Decimal

def digitChars (d : Decimal) : List Char := Nat.toDigits 10 d.digits

def leadingExponent (d : Decimal) : Int := d.exponent + d.digitChars.length - 1

/-- The pattern, in a binary format, of the number nearest to a decimal. An exponent far outside
every format's range is not expanded. -/
def nearestBits (f : BinaryFormat) (d : Decimal) : Nat :=
  if d.digits = 0 then 0
  else if 400 < d.leadingExponent then f.top * Nat.pow 2 (f.precision - 1)
  else if d.leadingExponent < -400 then 0
  else f.nearest (d.digits * Nat.pow 10 d.exponent.toNat) (Nat.pow 10 (-d.exponent).toNat)

def toFloat (negative : Bool) (d : Decimal) : Float :=
  let bits := d.nearestBits .double
  Float.ofBits (UInt64.ofNat (if negative then Nat.pow 2 63 + bits else bits))

/-- The digits with the point in its place: `120`, `1.2`, `0.0012`. With `point`, a whole number
ends in `.0`. -/
def positional (point : Bool) (d : Decimal) : List Char :=
  let digits := d.digitChars
  let places := (-d.exponent).toNat
  if places = 0 then
    digits ++ List.replicate d.exponent.toNat '0' ++ (if point then ['.', '0'] else [])
  else
    let digits := List.replicate (places + 1 - digits.length) '0' ++ digits
    digits.take (digits.length - places) ++ '.' :: digits.drop (digits.length - places)

/-- One digit before the point and the power of ten after an `e`, with its sign: `1.2e+16`,
`1e-6`. -/
def scientific (d : Decimal) : List Char :=
  let exponent := d.leadingExponent
  let mark := if exponent < 0 then ['e', '-'] else ['e', '+']
  let mantissa := match d.digitChars with
    | [] => []
    | [digit] => [digit]
    | digit :: digits => digit :: '.' :: digits
  mantissa ++ mark ++ Nat.toDigits 10 exponent.natAbs

end Decimal
end Formula
