/-!
Ascending tables of code point ranges, the form in which a Unicode property is stored.
-/

namespace Formula.Text

/-- Whether a number lies in one of the ranges, which ascend and include both their ends. -/
def covers : List (Nat × Nat) → Nat → Bool
  | [], _ => false
  | (low, high) :: ranges, n =>
    if n < low then false else if n ≤ high then true else covers ranges n

@[simp] theorem covers_nil (n : Nat) : covers [] n = false := rfl

/-- A covered number lies in some range of the table. -/
theorem exists_mem_of_covers {ranges : List (Nat × Nat)} {n : Nat} (h : covers ranges n = true) :
    ∃ r ∈ ranges, r.1 ≤ n ∧ n ≤ r.2 := by
  induction ranges with
  | nil => simp at h
  | cons r ranges ih =>
    obtain ⟨low, high⟩ := r
    simp only [covers] at h
    split at h
    · simp at h
    · split at h
      · exact ⟨(low, high), by simp, by omega, by assumption⟩
      · obtain ⟨r, hr, hn⟩ := ih h
        exact ⟨r, by simp [hr], hn⟩

end Formula.Text
