import Formula.Proofs.NodeValues
import Formula.Proofs.Rendering

/-! Integers written as sources. The digits of a number are read as that number if it is within the
range, and a sign in front of them is applied afterwards, so the least integer, whose digits are out
of range, is the one that cannot be written. -/
namespace Formula

variable {k : Kind} {v : Value} {m : Nat} {b : Bindings}

def Value.mark (v : Value) : Token := ⟨v.literalKind, some v, 0, ⟨0, 0⟩⟩

theorem Value.content_mark (v : Value) : v.mark.content = ⟨v.literalKind, some v⟩ := by
  cases v <;> rfl

theorem Phrase.literal (hk : k.admits v.literalKind = true) : Phrase k [v.mark] := by
  have hkind : v.literalKind ≠ .openParen ∧ v.literalKind ≠ .closeParen ∧
      v.literalKind ≠ .identifier ∧ v.literalKind ≠ .eof ∧ v.literalKind.mayEnd = true := by
    cases v <;> exact ⟨nofun, nofun, nofun, nofun, rfl⟩
  obtain ⟨hopen, hclose, hname, heof, hends⟩ := hkind
  refine ⟨⟨hk, trivial⟩, hends, nested_singleton hopen hclose, ?_, ?_⟩
  · rw [List.forall_mem_singleton]
    exact ⟨fun h => absurd h hname, fun _ => ⟨v, rfl, rfl⟩⟩
  · rw [List.forall_mem_singleton]
    exact heof

theorem Parses.literal_mark (v : Value) (tier : Tier) : Parses tier [v.mark] (.literal v) := by
  have hliteral : Parses .primary [v.mark] (.literal v) := .literal rfl rfl
  exact hliteral.loosen (Nat.zero_le _)

theorem scans_natural (h : m < Nat.pow 2 63) :
    Scans m.repr.toList ([(Value.integer (Int64.ofNat m)).mark].map Token.content) := by
  obtain ⟨c, cs, htext, hscan⟩ := scan_natural h
  rw [Nat.toList_repr, htext, List.map_singleton, Value.content_mark]
  exact Scans.of_scan hscan .nil

/-- The digits of a number within the range are its literal. -/
theorem compile_natural (h : m < Nat.pow 2 63) :
    compile m.repr = .ok (.literal (.integer (Int64.ofNat m))) :=
  compile_eq_ok_iff.mpr ⟨_, scans_natural h, .literal rfl, .literal_mark _ .or⟩

/-- Behind a sign, too, the number itself has to be within the range. -/
theorem compile_negated (h : m < Nat.pow 2 63) :
    compile ("-" ++ m.repr) =
      .ok (.operation .negative .empty (.literal (.integer (Int64.ofNat m)))) := by
  apply compile_eq_ok_iff.mpr
  refine ⟨[Kind.minus.mark, (Value.integer (Int64.ofNat m)).mark], ?_, ?_, ?_⟩
  · rw [String.toList_append]
    exact (scans_natural h).single (c := '-') rfl
  · have hnumber : Phrase .minus [(Value.integer (Int64.ofNat m)).mark] := .literal rfl
    exact hnumber.cons_mark rfl ⟨rfl, nofun, nofun⟩ nofun nofun
  · have hsigned := Parses.signed (t := Kind.minus.mark) .negative rfl
      (Parses.literal_mark (.integer (Int64.ofNat m)) .unary)
    exact hsigned.loosen (by decide)

theorem evaluate_natural (h : m < Nat.pow 2 63) :
    evaluate m.repr b = .ok (.ofValue (.integer (Int64.ofNat m))) :=
  (evaluate_eq_ok_iff (compile_natural h)).mpr (Expr.comesTo_literal _)

theorem evaluate_negated (h : m < Nat.pow 2 63) :
    evaluate ("-" ++ m.repr) b = .ok (.ofValue (.integer (-Int64.ofNat m))) := by
  have hnumber : (Expr.literal (.integer (Int64.ofNat m))).ComesTo b _ := Expr.comesTo_literal _
  rw [evaluate_eq_ok_iff (compile_negated h), Expr.operation, hnumber.outcome_unary]
  rfl

theorem evaluate_least :
    evaluate "-9223372036854775808" b =
      .error (.compile (.scan ⟨.badNumber "9223372036854775808".toList, ⟨1, 19⟩⟩)) := by
  have hfault : compile "-9223372036854775808" =
      .error (.scan ⟨.badNumber "9223372036854775808".toList, ⟨1, 19⟩⟩) := by decide +kernel
  rw [evaluate, hfault]

/-- The text of an integer comes back as the integer, but for the least one: its digits are out of
range, whatever stands in front of them. -/
theorem evaluate_display_integer (n : Int64) (b : Bindings) :
    evaluate (Value.integer n).display b =
      if n = Int64.minValue then
        .error (.compile (.scan ⟨.badNumber "9223372036854775808".toList, ⟨1, 19⟩⟩))
      else .ok (.ofValue (.integer n)) := by
  split
  · next hleast =>
    subst hleast
    exact evaluate_least
  · next hleast =>
    have hmax : n.toInt < 2 ^ 63 := n.toInt_lt
    have hmin : -2 ^ 63 < n.toInt := by
      have hne : n.toInt ≠ -2 ^ 63 := fun h => hleast (Int64.toInt_inj.mp h)
      have hle := n.le_toInt
      omega
    show evaluate (Int.repr n.toInt) b = _
    -- The text begins with a sign exactly if the integer is negative.
    cases hn : n.toInt with
    | ofNat m =>
      have hvalue : Int64.ofNat m = n := by
        rw [← Int64.ofInt_toInt n, hn]
        rfl
      rw [hn] at hmax
      rw [← hvalue]
      exact evaluate_natural (Int.ofNat_lt.mp hmax)
    | negSucc m =>
      have hvalue : -Int64.ofNat (m + 1) = n := by
        rw [← Int64.ofInt_toInt n, hn, Int.negSucc_eq, Int64.ofInt_neg]
        rfl
      have hpow : Nat.pow 2 63 = 2 ^ 63 := rfl
      rw [← hvalue]
      exact evaluate_negated (by omega)

/-- The least integer is not what its text evaluates to. -/
theorem leastInteger_unwritten :
    ¬∀ n : Int64, evaluate (Value.integer n).display .empty = .ok (.ofValue (.integer n)) := by
  intro h
  have hfails : (evaluate (Value.integer Int64.minValue).display .empty).toOption = none := by
    decide +kernel
  rw [h Int64.minValue] at hfails
  cases hfails

end Formula
