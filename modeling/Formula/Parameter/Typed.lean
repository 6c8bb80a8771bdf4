import Formula.Parameter

/-!
Parameters written as texts, read under a type that is named beside them.
-/

namespace Formula

inductive ParameterType where
  | bool
  | integer (low high : Int)
  /-- The natural numbers of sixty-four bits. -/
  | natural
  | single
  | double
  | text
  | number
  | json
  deriving DecidableEq, Repr

namespace ParameterType

def read? (type : ParameterType) (s : String) : Option Parameter :=
  match type with
  | .bool =>
    if s = "true" then some (.bool true) else if s = "false" then some (.bool false) else none
  | .integer low high => do
    let n ← Decimal.signed? s.toList
    if low ≤ n ∧ n ≤ high then pure (.integer (Int64.ofInt n)) else none
  | .natural => do
    let n ← Decimal.signed? s.toList
    if 0 ≤ n ∧ n.toNat < Nat.pow 2 64 then pure (.natural (UInt64.ofNat n.toNat)) else none
  | .single => (Numeral.ofString? s).map fun n => .single n.toFloat32
  | .double => (Numeral.ofString? s).map fun n => .double n.toFloat
  | .text => some (.text s)
  | .number => match Json.parse? s with
    | some (.number n) => some (.number n)
    | _ => none
  | .json => (Json.parse? s).map .json

end ParameterType
end Formula
