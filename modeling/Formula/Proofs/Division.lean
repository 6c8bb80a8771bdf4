import Formula.Proofs.Composition
import Formula.Proofs.NodeValues
import Formula.Proofs.Rounding

/-! Division of integers. A quotient is an integer if nothing is left over, and a float otherwise;
a remainder has the sign of its dividend, and the two restore the dividend. -/
namespace Formula

/-- A quotient and a rest in unbounded integers, the rest with the sign of the dividend. -/
structure Truncated (a b q r : Int) : Prop where
  parts : a = q * b + r
  smaller : r.natAbs < b.natAbs
  sign : r = 0 ∨ r.sign = a.sign

/-- What `/` gives for a quotient and a rest: the quotient if nothing is left over, with the one
that is out of range reduced, and otherwise the quotient of the nearest floats. -/
inductive QuotientValue (m n : Int64) (q r : Int) : Value → Prop where
  | whole {k : Int64} (exact : r = 0)
      (value : k.toInt = if m = Int64.minValue ∧ n = -1 then Int64.minValue.toInt else q) :
      QuotientValue m n q r (.integer k)
  | real {f : Float} (inexact : r ≠ 0)
      (value : Symbol.divide.onFloats (Float.ofInt64 m) (Float.ofInt64 n) =
        .ok (.ofValue (.float f))) : QuotientValue m n q r (.float f)

/-- The tree of `((x - x % y) / y) * y + x % y`, with what stands for its parentheses. -/
def Expr.restored (group : Expr → Expr) (x y : Expr) : Expr :=
  .operation .plus
    (.operation .times
      (group (.operation .divide (group (.operation .minus x (.operation .modulo x y))) y)) y)
    (.operation .modulo x y)

example : compile "((x - x % y) / y) * y + x % y" =
    .ok (.restored Expr.parenthesized (.reference "x") (.reference "y")) := by decide +kernel

structure IntegerDivision (b : Bindings) (x y : Expr) (m n : Int64) : Prop where
  byZero : n = 0 → ∀ symbol : Symbol, symbol.divides →
    ((Expr.operation symbol x y).eval b).outcome = .error .divideByZero
  results : n ≠ 0 → ∃ (q : Int) (r : Int64) (v : Value), Truncated m.toInt n.toInt q r.toInt ∧
    (Expr.operation .modulo x y).ComesTo b (.integer r) ∧
    (Expr.operation .divide x y).ComesTo b v ∧ QuotientValue m n q r.toInt v
  restores : n ≠ 0 → ∀ group ∈ [id, Expr.parenthesized],
    (Expr.restored group x y).ComesTo b (.integer m)

section Arithmetic

variable {m n : Int64} {a b : Int}

theorem truncated_tdiv_tmod (h : b ≠ 0) : Truncated a b (a.tdiv b) (a.tmod b) where
  parts := (Int.tdiv_mul_add_tmod a b).symm
  smaller := by
    rw [Int.natAbs_tmod]
    exact Nat.mod_lt _ (Int.natAbs_pos.mpr h)
  sign := by
    rw [Int.sign_tmod]
    split
    · next hdvd => exact .inl (Int.tmod_eq_zero_of_dvd hdvd)
    · exact .inr rfl

theorem mod_eq_zero_iff : m % n = 0 ↔ m.toInt.tmod n.toInt = 0 := by
  rw [← Int64.toInt_inj, Int64.toInt_mod]
  rfl

/-- Overflow of the quotient is undone by the product. -/
theorem div_mul_add_mod (m n : Int64) : m / n * n + m % n = m := by
  have hquotient : m / n = Int64.ofInt (m.toInt.tdiv n.toInt) := by
    rw [← Int64.toInt_inj, Int64.toInt_div, Int64.toInt_ofInt]
  have hrest : m % n = Int64.ofInt (m.toInt.tmod n.toInt) := by
    rw [← Int64.toInt_mod, Int64.ofInt_toInt]
  calc m / n * n + m % n
      = Int64.ofInt (m.toInt.tdiv n.toInt) * Int64.ofInt n.toInt +
          Int64.ofInt (m.toInt.tmod n.toInt) := by rw [hquotient, hrest, Int64.ofInt_toInt]
    _ = Int64.ofInt (m.toInt.tdiv n.toInt * n.toInt + m.toInt.tmod n.toInt) := by
        rw [Int64.ofInt_add, Int64.ofInt_mul]
    _ = m := by rw [Int.tdiv_mul_add_tmod, Int64.ofInt_toInt]

/-- A rest lies between zero and its dividend, so that taking it away does not overflow. -/
theorem toInt_sub_mod (m n : Int64) : (m - m % n).toInt = m.toInt - m.toInt.tmod n.toInt := by
  have habs : (m.toInt.tmod n.toInt).natAbs ≤ m.toInt.natAbs := by
    rw [Int.natAbs_tmod]
    exact Nat.mod_le _ _
  have hmin := m.le_toInt
  have hmax := m.toInt_lt
  rw [Int64.toInt_sub, Int64.toInt_mod]
  rcases Int.le_total 0 m.toInt with hm | hm
  · have hrest := Int.tmod_nonneg n.toInt hm
    exact Int.bmod_eq_of_le (by omega) (by omega)
  · have hrest := Int.tmod_nonneg n.toInt (Int.neg_nonneg_of_nonpos hm)
    rw [Int.neg_tmod] at hrest
    exact Int.bmod_eq_of_le (by omega) (by omega)

theorem sub_mod_mod (m n : Int64) : (m - m % n) % n = 0 := by
  have hwhole : m.toInt - m.toInt.tmod n.toInt = m.toInt.tdiv n.toInt * n.toInt := by
    have := Int.tdiv_mul_add_tmod m.toInt n.toInt
    omega
  rw [mod_eq_zero_iff, toInt_sub_mod, hwhole, Int.mul_tmod_left]

/-- What division takes apart, `*` and `+` put together again. -/
theorem sub_mod_div_mul_add_mod (m n : Int64) : (m - m % n) / n * n + m % n = m := by
  have hwhole : (m - m % n) / n * n = m - m % n := by
    have hparts := div_mul_add_mod (m - m % n) n
    rwa [sub_mod_mod, Int64.add_zero] at hparts
  rw [hwhole, Int64.sub_add_cancel]

end Arithmetic

section Trees

variable {b : Bindings} {x y : Expr} {m n : Int64}

theorem outcome_divides {symbol : Symbol} (hx : x.ComesTo b (.integer m))
    (hy : y.ComesTo b (.integer n)) (h : symbol.divides) :
    ((Expr.operation symbol x y).eval b).outcome = symbol.onIntegers m n := by
  rcases h with rfl | rfl <;> exact hx.outcome_binary hy rfl rfl

theorem comesTo_modulo (hx : x.ComesTo b (.integer m)) (hy : y.ComesTo b (.integer n))
    (hn : n ≠ 0) : (Expr.operation .modulo x y).ComesTo b (.integer (m % n)) := by
  rw [Expr.ComesTo, outcome_divides hx hy (.inr rfl), Symbol.onIntegers, if_neg hn]
  rfl

theorem comesTo_divide (hx : x.ComesTo b (.integer m)) (hy : y.ComesTo b (.integer n))
    (hn : n ≠ 0) (hrest : m % n = 0) :
    (Expr.operation .divide x y).ComesTo b (.integer (m / n)) := by
  rw [Expr.ComesTo, outcome_divides hx hy (.inl rfl), Symbol.onIntegers, if_neg hn, if_pos hrest]
  rfl

/-- A whole quotient is the one in unbounded integers, unless that is out of range. -/
theorem toInt_div (m n : Int64) : (m / n).toInt =
    if m = Int64.minValue ∧ n = -1 then Int64.minValue.toInt else m.toInt.tdiv n.toInt := by
  split
  · next hleast =>
    rw [hleast.1, hleast.2]
    decide
  · next hleast =>
    rcases Decidable.not_and_iff_or_not.mp hleast with hm | hn
    · exact Int64.toInt_div_of_ne_left m n hm
    · exact Int64.toInt_div_of_ne_right m n hn

theorem exists_quotient (hx : x.ComesTo b (.integer m)) (hy : y.ComesTo b (.integer n))
    (hn : n ≠ 0) : ∃ v, (Expr.operation .divide x y).ComesTo b v ∧
      QuotientValue m n (m.toInt.tdiv n.toInt) (m.toInt.tmod n.toInt) v := by
  by_cases hrest : m % n = 0
  · exact ⟨_, comesTo_divide hx hy hn hrest, .whole (mod_eq_zero_iff.mp hrest) (toInt_div m n)⟩
  · have hfloat : Symbol.divide.onIntegers m n =
        .ok (.ofValue (.float (Float.ofInt64 m / Float.ofInt64 n))) := by
      rw [Symbol.onIntegers, if_neg hn, if_neg hrest]
      rfl
    refine ⟨_, (outcome_divides hx hy (.inl rfl)).trans hfloat, .real ?_ ?_⟩
    · exact mt mod_eq_zero_iff.mpr hrest
    · rw [← onIntegers_divide hn hrest, hfloat]

theorem Expr.ComesTo.of_group {e : Expr} {v : Value} (h : e.ComesTo b v) {group : Expr → Expr}
    (hgroup : group ∈ [id, Expr.parenthesized]) : (group e).ComesTo b v := by
  simp only [List.mem_cons, List.not_mem_nil, or_false] at hgroup
  rcases hgroup with rfl | rfl
  · exact h
  · exact outcome_eval_group.trans h

theorem comesTo_restored (hx : x.ComesTo b (.integer m)) (hy : y.ComesTo b (.integer n))
    (hn : n ≠ 0) {group : Expr → Expr} (hgroup : group ∈ [id, Expr.parenthesized]) :
    (Expr.restored group x y).ComesTo b (.integer m) := by
  have hrest := comesTo_modulo hx hy hn
  have hdifference : (Expr.operation .minus x (.operation .modulo x y)).ComesTo b
      (.integer (m - m % n)) := hx.outcome_binary hrest rfl rfl
  have hquotient := comesTo_divide (hdifference.of_group hgroup) hy hn (sub_mod_mod m n)
  have hproduct : (Expr.operation .times (group (.operation .divide (group (.operation .minus x
      (.operation .modulo x y))) y)) y).ComesTo b (.integer ((m - m % n) / n * n)) :=
    (hquotient.of_group hgroup).outcome_binary hy rfl rfl
  have hsum : (Expr.restored group x y).ComesTo b
      (.integer ((m - m % n) / n * n + m % n)) := hproduct.outcome_binary hrest rfl rfl
  rwa [sub_mod_div_mul_add_mod] at hsum

/-- Division by zero fails, for quotients and remainders alike. By any other integer there is a
quotient and a remainder, and with both the dividend can be computed again. -/
theorem eval_divides (first : x.ComesTo b (.integer m)) (second : y.ComesTo b (.integer n)) :
    IntegerDivision b x y m n where
  byZero := by
    rintro rfl symbol hdivides
    rw [outcome_divides first second hdivides]
    rcases hdivides with rfl | rfl <;> rfl
  results hn := by
    obtain ⟨v, hv, hquotient⟩ := exists_quotient first second hn
    rw [← Int64.toInt_mod] at hquotient
    refine ⟨_, m % n, v, ?_, comesTo_modulo first second hn, hv, hquotient⟩
    rw [Int64.toInt_mod]
    exact truncated_tdiv_tmod (toInt_ne_zero hn)
  restores hn _ hgroup := comesTo_restored first second hn hgroup

/-- The least integer has no negation, so the quotient by `-1` is the dividend itself. -/
theorem leastInteger_restored :
    (Expr.reference "a").ComesTo ⟨[("a", .integer Int64.minValue)]⟩ (.integer Int64.minValue) ∧
      (Expr.literal (.integer (-1))).ComesTo ⟨[("a", .integer Int64.minValue)]⟩ (.integer (-1)) ∧
      (Expr.restored Expr.parenthesized (.reference "a") (.literal (.integer (-1)))).ComesTo
        ⟨[("a", .integer Int64.minValue)]⟩ (.integer Int64.minValue) := by
  have dividend : (Expr.reference "a").ComesTo ⟨[("a", .integer Int64.minValue)]⟩
      (.integer Int64.minValue) := Expr.comesTo_reference rfl
  have divisor : (Expr.literal (.integer (-1))).ComesTo ⟨[("a", .integer Int64.minValue)]⟩
      (.integer (-1)) := Expr.comesTo_literal _
  exact ⟨dividend, divisor, (eval_divides dividend divisor).restores (by decide) _ (by simp)⟩

end Trees
end Formula
