import Mathlib
import Formula.Expr.Operation

/-! Integers as floats. The float nearest to an integer other than zero is not zero, so it may be
divided by. -/
namespace Formula

open Float.Model Float.Model.UnpackedFloat

variable {num : Nat} {bits : UInt64} {m n : Int64}

/-- Whole numbers have exponents well above the least one. -/
theorem le_nearest (h : num ≠ 0) :
    2 ^ 52 ≤ BinaryFormat.double.nearest num 1 ∧
      BinaryFormat.double.nearest num 1 ≤ 2047 * 2 ^ 52 := by
  have hlog : Nat.log2 1 = 0 := by decide
  simp only [BinaryFormat.nearest, BinaryFormat.double, h, if_false, hlog]
  refine ⟨?_, Nat.min_le_right _ _⟩
  rw [Nat.le_min]
  refine ⟨?_, by decide⟩
  apply Nat.le_add_right_of_le
  apply Nat.le_mul_of_pos_left
  split <;> omega

theorem unpackExponent_ne_zero (h : bits.toNat / 2 ^ 52 % 2 ^ 11 ≠ 0) :
    @unpackExponent .binary64 bits.toBitVec ≠ 0#11 := by
  intro hzero
  have hfield := congrArg BitVec.toNat hzero
  simp only [unpackExponent, BitVec.toNat_cast, BitVec.extractLsb_toNat] at hfield
  rw [Nat.shiftRight_eq_div_pow] at hfield
  exact h hfield

/-- The bits of a float are those it is made of, unless they are reduced to the bits that stand for
no number: either way their exponent is kept from becoming zero. -/
theorem unpackExponent_toBits_ofBits (h : @unpackExponent .binary64 bits.toBitVec ≠ 0#11) :
    @unpackExponent .binary64 (Float.ofBits bits).toBits.toBitVec ≠ 0#11 := by
  have hbits : (Float.ofBits bits).toBits.toBitVec =
      if @isNaNBits .binary64 bits.toBitVec then packedNaN .binary64 else bits.toBitVec :=
    @pack_unpack .binary64 bits.toBitVec (by decide)
  rw [hbits]
  split
  · rw [packedNaN, unpackExponent_packComponents]
    decide
  · exact h

/-- A float with an exponent other than zero is not equal to zero. -/
theorem ofBits_beq_zero (h : @unpackExponent .binary64 bits.toBitVec ≠ 0#11) :
    (Float.ofBits bits == 0.0) = false := by
  have hfield := unpackExponent_toBits_ofBits h
  rw [Bool.eq_false_iff]
  intro hbeq
  obtain ⟨_, _, hzero | ⟨hzero, _⟩ | ⟨hzero, _⟩⟩ := Float.beq_iff_ne_nan_and_eq.mp hbeq <;>
  · rw [hzero] at hfield
    exact hfield (by decide)

theorem toInt_ne_zero (h : n ≠ 0) : n.toInt ≠ 0 := fun hzero => h (Int64.toInt_inj.mp hzero)

/-- No integer but zero becomes zero. -/
theorem ofInt64_beq_zero (h : n ≠ 0) : (Float.ofInt64 n == 0.0) = false := by
  have habs : n.toInt.natAbs ≠ 0 := mt Int.natAbs_eq_zero.mp (toInt_ne_zero h)
  obtain ⟨hlower, hupper⟩ := le_nearest habs
  unfold Float.ofInt64 Float.nearest
  apply ofBits_beq_zero
  apply unpackExponent_ne_zero
  -- The sign stands above the exponent, which keeps its value below it.
  have hsign : Nat.pow 2 63 = 2 ^ 63 := rfl
  simp only [UInt64.toNat_ofNat']
  split <;> omega

/-- A quotient that is not whole is that of the floats nearest to the operands. -/
theorem onIntegers_divide (h : n ≠ 0) (hrest : m % n ≠ 0) :
    Symbol.divide.onIntegers m n =
      Symbol.divide.onFloats (Float.ofInt64 m) (Float.ofInt64 n) := by
  simp [Symbol.onIntegers, Symbol.onFloats, h, hrest, ofInt64_beq_zero h]

end Formula
