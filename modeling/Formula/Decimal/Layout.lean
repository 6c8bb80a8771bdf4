import Formula.Decimal.Shortest

/-!
Written forms of floats. All use the fewest digits that read back; a layout says when a power of
ten is split off, whether whole numbers keep a point, and which way ties go.
-/

namespace Formula

structure Layout where
  tie : Tie
  /-- Whether a whole number ends in `.0`. -/
  point : Bool
  /-- The powers of ten of the leading digit that are written out in full; all of them if absent. -/
  plain : Option (Int × Int)
  deriving DecidableEq, Repr

namespace Layout

def isPlain (l : Layout) (d : Decimal) : Bool :=
  match l.plain with
  | none => true
  | some (least, greatest) => least ≤ d.leadingExponent && d.leadingExponent ≤ greatest

def digits (l : Layout) (d : Decimal) : List Char :=
  if l.isPlain d then d.positional l.point else d.scientific

def text (l : Layout) (x : Float) : String :=
  match x.magnitude? with
  | none => if x.isNaN then "NaN" else if x.isNegative then "-inf" else "inf"
  | some d =>
    let digits := l.digits (if d.significand = 0 then ⟨0, 0⟩ else d.shortest l.tie)
    String.ofList (if x.isNegative then '-' :: digits else digits)

end Layout
end Formula
