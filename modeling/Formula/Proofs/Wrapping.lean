import Formula.Proofs.NodeValues

/-! Integer arithmetic in trees. Sums, differences, products and signs of integers are computed
modulo `2 ^ 64` at every node, so the value of a whole tree is its value in unbounded integers,
reduced once. -/
namespace Formula

/-- The trees of integer arithmetic under bindings, each with its value in unbounded integers. What
earlier evaluations have left in a tree plays no part. -/
inductive Expr.Computes (b : Bindings) : Expr → Int → Prop where
  | literal (n : Int64) : Computes b (.literal (.integer n)) n.toInt
  | reference {name : String} {own : Annotation} {n : Int64}
      (bound : b.lookup name = some (some (.integer n))) :
      Computes b (.node .reference (some name) own .empty .empty) n.toInt
  | plus {name : Option String} {own : Annotation} {l r : Expr} {x y : Int}
      (first : Computes b l x) (second : Computes b r y) :
      Computes b (.node .plus name own l r) (x + y)
  | minus {name : Option String} {own : Annotation} {l r : Expr} {x y : Int}
      (first : Computes b l x) (second : Computes b r y) :
      Computes b (.node .minus name own l r) (x - y)
  | times {name : Option String} {own : Annotation} {l r : Expr} {x y : Int}
      (first : Computes b l x) (second : Computes b r y) :
      Computes b (.node .times name own l r) (x * y)
  | negative {name : Option String} {own : Annotation} {r : Expr} {x : Int}
      (operand : Computes b r x) : Computes b (.node .negative name own .empty r) (-x)
  | positive {name : Option String} {own : Annotation} {r : Expr} {x : Int}
      (operand : Computes b r x) : Computes b (.node .positive name own .empty r) x
  | group {name : Option String} {own : Annotation} {r : Expr} {x : Int}
      (operand : Computes b r x) : Computes b (.node .group name own .empty r) x

/-- Reducing at every node comes to the same as reducing once. -/
theorem Expr.Computes.comesTo {b : Bindings} {e : Expr} {z : Int} (h : e.Computes b z) :
    e.ComesTo b (.integer (Int64.ofInt z)) := by
  induction h with
  | literal n =>
    rw [Int64.ofInt_toInt]
    exact comesTo_literal _
  | reference bound =>
    rw [Int64.ofInt_toInt]
    exact comesTo_reference bound
  | plus _ _ ihl ihr =>
    rw [ComesTo, ihl.outcome_binary ihr rfl rfl, Int64.ofInt_add]
    rfl
  | minus _ _ ihl ihr =>
    rw [ComesTo, ihl.outcome_binary ihr rfl rfl, Int64.ofInt_sub]
    rfl
  | times _ _ ihl ihr =>
    rw [ComesTo, ihl.outcome_binary ihr rfl rfl, Int64.ofInt_mul]
    rfl
  | negative _ ih =>
    rw [ComesTo, ih.outcome_unary, Int64.ofInt_neg]
    rfl
  | positive _ ih =>
    rw [ComesTo, ih.outcome_unary]
    rfl
  | group _ ih =>
    rw [ComesTo, outcome_eval_group]
    exact ih

/-- The value of a tree of integer arithmetic is its value in unbounded integers, reduced to the
sixty-four bits of two's complement, however far the results inside it overflow. -/
theorem eval_wraps {b : Bindings} {e : Expr} {z : Int} (h : e.Computes b z) :
    ∃ n : Int64, e.ComesTo b (.integer n) ∧ n.toInt = z.bmod (Nat.pow 2 64) := by
  exact ⟨Int64.ofInt z, h.comesTo, Int64.toInt_ofInt⟩

/-- The tree of `-(a * a) - +9223372036854775807`. -/
def overflowingProduct : Expr :=
  .operation .minus
    (.operation .negative .empty
      (.operation .group .empty (.operation .times (.reference "a") (.reference "a"))))
    (.operation .positive .empty (.literal (.integer Int64.maxValue)))

/-- The product overflows to zero, the sign of which is zero again, and the difference is what the
unbounded value leaves. -/
theorem overflowingProduct_wraps :
    overflowingProduct.Computes ⟨[("a", .integer Int64.minValue)]⟩
        (-(Int64.minValue.toInt * Int64.minValue.toInt) - Int64.maxValue.toInt) ∧
      ∃ n : Int64, overflowingProduct.ComesTo ⟨[("a", .integer Int64.minValue)]⟩ (.integer n) ∧
        n.toInt = Int.bmod (-(Int64.minValue.toInt * Int64.minValue.toInt) - Int64.maxValue.toInt)
          (Nat.pow 2 64) := by
  have bound : Bindings.lookup ⟨[("a", .integer Int64.minValue)]⟩ "a" =
      some (some (.integer Int64.minValue)) := rfl
  have computes : overflowingProduct.Computes ⟨[("a", .integer Int64.minValue)]⟩
      (-(Int64.minValue.toInt * Int64.minValue.toInt) - Int64.maxValue.toInt) :=
    .minus (.negative (.group (.times (.reference bound) (.reference bound))))
      (.positive (.literal _))
  exact ⟨computes, eval_wraps computes⟩

end Formula
