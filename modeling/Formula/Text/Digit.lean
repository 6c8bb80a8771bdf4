/-!
Digits of the bases up to sixteen, in either case.
-/

namespace Formula.Text

def hexValue? (c : Char) : Option Nat :=
  if '0' ≤ c ∧ c ≤ '9' then some (c.toNat - '0'.toNat)
  else if 'a' ≤ c ∧ c ≤ 'f' then some (c.toNat - 'a'.toNat + 10)
  else if 'A' ≤ c ∧ c ≤ 'F' then some (c.toNat - 'A'.toNat + 10)
  else none

def digitValue? (base : Nat) (c : Char) : Option Nat :=
  (hexValue? c).filter (· < base)

theorem lt_of_digitValue? {base value : Nat} {c : Char} (h : digitValue? base c = some value) :
    value < base := by
  simpa using (Option.filter_eq_some_iff.mp h).2

end Formula.Text
