import Formula.Decimal

/-!
The shortest decimal that reads back as a given float: the numbers that round to the float form an
interval, and the coarsest decimal grid with a point in that interval has the fewest digits. Of
two such points the nearer is taken, and a record says which way an exact tie goes.
-/

namespace Formula

/-- Where a decimal exactly halfway between two others goes. -/
inductive Tie where
  | up
  | even
  deriving DecidableEq, Repr

/-- The numbers that round to one positive float, in quarters of its last bit:
`low · 2 ^ exponent` to `high · 2 ^ exponent`, around `value · 2 ^ exponent`. -/
structure RoundingInterval where
  low : Nat
  value : Nat
  high : Nat
  exponent : Int
  /-- Whether the two ends round to the float as well. -/
  closed : Bool
  deriving DecidableEq, Repr

namespace RoundingInterval

/-- The interval of a float of sixty-four bits. Below a power of two the floats lie twice as close,
save at the smallest exponent. -/
def ofDyadic (d : Dyadic) : RoundingInterval where
  low := if d.significand = Nat.pow 2 52 ∧ -1074 < d.exponent then 4 * d.significand - 1
    else 4 * d.significand - 2
  value := 4 * d.significand
  high := 4 * d.significand + 2
  exponent := d.exponent - 2
  closed := d.significand % 2 = 0

/-- Whether a point lies in the interval, once both are counted in the same unit. -/
def holds (i : RoundingInterval) (unit point : Nat) : Bool :=
  (i.low * unit < point && point < i.high * unit) ||
    (i.closed && (point = i.low * unit || point = i.high * unit))

/-- The multiple of `10 ^ k` that stands for the interval, if one lies in it. -/
def onGrid? (i : RoundingInterval) (tie : Tie) (k : Int) : Option Decimal :=
  let step := Nat.pow 10 k.toNat * Nat.pow 2 (-i.exponent).toNat
  let unit := Nat.pow 10 (-k).toNat * Nat.pow 2 i.exponent.toNat
  let value := i.value * unit
  let below := value / step
  let downGap := value - below * step
  let upGap := (below + 1) * step - value
  let goesUp := upGap < downGap || (upGap = downGap && (tie = .up || below % 2 = 1))
  match i.holds unit (below * step), i.holds unit ((below + 1) * step) with
  | true, true => some ⟨if goesUp then below + 1 else below, k⟩
  | true, false => some ⟨below, k⟩
  | false, true => some ⟨below + 1, k⟩
  | false, false => none

/-- Tries `fuel` grids, each ten times finer than the one before. -/
def refine (i : RoundingInterval) (tie : Tie) : Nat → Int → Option Decimal
  | 0, _ => none
  | fuel + 1, k => (i.onGrid? tie k).orElse fun _ => i.refine tie fuel (k - 1)

end RoundingInterval

/-- The shortest decimal that reads back as a positive float of sixty-four bits. The first grid is
coarser than the float, and seventeen digits always suffice. -/
def Dyadic.shortest (tie : Tie) (d : Dyadic) : Decimal :=
  let magnitude : Int := d.significand.log2 + d.exponent + 1
  ((RoundingInterval.ofDyadic d).refine tie 24 (magnitude * 30103 / 100000 + 2)).getD ⟨0, 0⟩

end Formula
