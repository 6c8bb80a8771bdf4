import Mathlib
import Formula.Proofs.JsonTexts

/-! Written floats. In JSON a finite float is a number that has a point or a power of ten, so that
it is read as a float again and not as an integer. -/
namespace Formula

open Float.Model Float.Model.UnpackedFloat

section Magnitudes

variable {x : Float} {i : RoundingInterval} {tie : Tie} {k : Int} {unit point : Nat} {d : Decimal}

theorem exists_magnitude (h : x.isFinite = true) : ∃ d, x.magnitude? = some d := by
  have hexponent : @unpackExponent .binary64 x.toBits.toBitVec ≠ -1#11 := by
    intro hones
    have hunpacked : (unpack .binary64 x.toBits.toBitVec).isFinite = true := h
    rw [UnpackedFloat.unpack, if_pos hones] at hunpacked
    split at hunpacked <;> cases hunpacked
  have hfield : x.toBits.toNat / Nat.pow 2 52 % Nat.pow 2 11 ≠ 2047 := by
    intro hall
    apply hexponent
    apply BitVec.eq_of_toNat_eq
    simp only [unpackExponent, BitVec.toNat_cast, BitVec.extractLsb_toNat]
    rw [Nat.shiftRight_eq_div_pow]
    exact hall
  unfold Float.magnitude?
  simp only [hfield, if_false]
  split <;> exact ⟨_, rfl⟩

/-- Zero lies in no interval of numbers that round to a positive float. -/
theorem RoundingInterval.ne_zero_of_holds (hlow : 0 < i.low) (hhigh : 0 < i.high)
    (hunit : 0 < unit) (h : i.holds unit point = true) : point ≠ 0 := by
  have hlow' := Nat.mul_pos hlow hunit
  have hhigh' := Nat.mul_pos hhigh hunit
  simp only [holds, Bool.or_eq_true, Bool.and_eq_true, decide_eq_true_eq] at h
  omega

theorem RoundingInterval.ne_zero_of_onGrid? (hlow : 0 < i.low) (hhigh : 0 < i.high)
    (h : i.onGrid? tie k = some d) : d.digits ≠ 0 := by
  have hunit : 0 < Nat.pow 10 (-k).toNat * Nat.pow 2 i.exponent.toNat :=
    Nat.mul_pos (Nat.pow_pos (by decide)) (Nat.two_pow_pos _)
  have hpoint (n step : Nat) (hn : i.holds _ (n * step) = true) : n ≠ 0 := fun hzero =>
    ne_zero_of_holds hlow hhigh hunit hn (by rw [hzero, Nat.zero_mul])
  simp only [onGrid?] at h
  split at h
  · next hbelow _ =>
    obtain rfl := Option.some.inj h
    dsimp only
    split
    · exact Nat.succ_ne_zero _
    · exact hpoint _ _ hbelow
  · next hbelow _ =>
    obtain rfl := Option.some.inj h
    exact hpoint _ _ hbelow
  · obtain rfl := Option.some.inj h
    exact Nat.succ_ne_zero _
  · cases h

theorem RoundingInterval.ne_zero_of_refine (hlow : 0 < i.low) (hhigh : 0 < i.high) {fuel : Nat}
    (h : i.refine tie fuel k = some d) : d.digits ≠ 0 := by
  induction fuel generalizing k with
  | zero => cases h
  | succ fuel ih =>
    rw [refine] at h
    cases hgrid : i.onGrid? tie k with
    | none =>
      rw [hgrid] at h
      exact ih h
    | some d' =>
      rw [hgrid] at h
      obtain rfl := Option.some.inj h
      exact ne_zero_of_onGrid? hlow hhigh hgrid

/-- Only zero is written with the digit zero alone, and then without further zeros. -/
theorem Dyadic.exponent_of_shortest (y : Dyadic) (positive : y.significand ≠ 0)
    (hzero : (y.shortest tie).digits = 0) : (y.shortest tie).exponent = 0 := by
  have hlow : 0 < (RoundingInterval.ofDyadic y).low := by
    simp only [RoundingInterval.ofDyadic]
    split <;> omega
  have hhigh : 0 < (RoundingInterval.ofDyadic y).high := by
    simp only [RoundingInterval.ofDyadic]
    omega
  unfold shortest at hzero ⊢
  dsimp only at hzero ⊢
  cases hrefine : (RoundingInterval.ofDyadic y).refine tie 24
      ((y.significand.log2 + y.exponent + 1 : Int) * 30103 / 100000 + 2) with
  | none => rfl
  | some d =>
    rw [hrefine] at hzero
    exact absurd hzero (RoundingInterval.ne_zero_of_refine hlow hhigh hrefine)

end Magnitudes

section Notations

open Json

variable {d : Decimal}

theorem Decimal.wholeText_digitChars (d : Decimal) : WholeText d.digitChars :=
  wholeText_toDigits d.digits

theorem Decimal.digits_eq_zero (h : d.digitChars = ['0']) : d.digits = 0 := by
  have hvalue := digitsValue_toDigits d.digits
  rw [← Decimal.digitChars, h] at hvalue
  exact hvalue.symm

section Padding

variable {digits padded : List Char} {places : Nat}

theorem lt_length_padded
    (hpadded : List.replicate (places + 1 - digits.length) '0' ++ digits = padded) :
    places < padded.length := by
  rw [← hpadded, List.length_append, List.length_replicate]
  omega

theorem isDigit_padded (h : Digits digits)
    (hpadded : List.replicate (places + 1 - digits.length) '0' ++ digits = padded) :
    ∀ c ∈ padded, c.isDigit = true := by
  rw [← hpadded]
  exact List.forall_mem_append.mpr ⟨by simp [Char.isDigit], h.isDigit⟩

/-- Zeros are put in front of digits only until there is one digit in front of the point. -/
theorem wholeText_padded (h : WholeText digits)
    (hpadded : List.replicate (places + 1 - digits.length) '0' ++ digits = padded) :
    WholeText (padded.take (padded.length - places)) := by
  have hlength := lt_length_padded hpadded
  have hpositive : 0 < padded.length - places := Nat.sub_pos_of_lt hlength
  refine ⟨⟨?_, fun c hc => isDigit_padded h.toDigits hpadded c (List.mem_of_mem_take hc)⟩, ?_⟩
  · rw [← List.length_pos_iff, List.length_take]
    omega
  · intro hhead
    have hpresent : padded ≠ [] := List.ne_nil_of_length_pos (Nat.zero_lt_of_lt hlength)
    obtain ⟨c, cs, rfl⟩ := List.exists_cons_of_ne_nil hpresent
    obtain ⟨k, hk⟩ := Nat.exists_eq_add_one.mpr hpositive
    rw [hk, List.take_succ_cons] at hhead ⊢
    obtain rfl : c = '0' := Option.some.inj hhead
    by_cases hone : k = 0
    · rw [hone, List.take_zero]
    · -- With more digits than one nothing is put in front, and they start with no zero.
      have hnone : places + 1 - digits.length = 0 := by
        have hsum := congrArg List.length hpadded
        rw [List.length_append, List.length_replicate] at hsum
        omega
      rw [hnone, List.replicate_zero, List.nil_append] at hpadded
      have hsingle := h.eq_zero (by rw [hpadded]; rfl)
      have hlong := congrArg List.length (hpadded.symm.trans hsingle)
      rw [List.length_singleton] at hlong
      omega

theorem digits_padded (h : Digits digits) (present : places ≠ 0)
    (hpadded : List.replicate (places + 1 - digits.length) '0' ++ digits = padded) :
    Digits (padded.drop (padded.length - places)) := by
  have hlength := lt_length_padded hpadded
  refine ⟨?_, fun c hc => isDigit_padded h hpadded c (List.mem_of_mem_drop hc)⟩
  rw [← List.length_pos_iff, List.length_drop]
  omega

end Padding

/-- With a point, digits are written in front of it and behind it. -/
theorem Decimal.exists_positional (hzero : d.digits = 0 → d.exponent = 0) :
    ∃ whole fraction, WholeText whole ∧ Digits fraction ∧
      d.positional true = whole ++ '.' :: fraction := by
  have hwhole := d.wholeText_digitChars
  unfold positional
  dsimp only
  split
  · refine ⟨d.digitChars ++ List.replicate d.exponent.toNat '0', ['0'], ⟨⟨?_, ?_⟩, ?_⟩,
      ⟨by simp, by simp [Char.isDigit]⟩, by simp⟩
    · simp [hwhole.ne_nil]
    · exact List.forall_mem_append.mpr ⟨hwhole.isDigit, by simp [Char.isDigit]⟩
    · intro hhead
      rw [List.head?_append_of_ne_nil _ hwhole.ne_nil] at hhead
      have hdigits := hwhole.eq_zero hhead
      rw [hdigits, hzero (digits_eq_zero hdigits)]
      rfl
  · next hplaces =>
    have hpresent : (-d.exponent).toNat ≠ 0 := by omega
    exact ⟨_, _, wholeText_padded hwhole rfl, digits_padded hwhole.toDigits hpresent rfl, rfl⟩

theorem Decimal.exists_scientific (d : Decimal) :
    ∃ whole fraction fractionText exponent exponentText,
      WholeText whole ∧ FractionText fraction fractionText ∧
        ExponentText (some exponent) exponentText ∧
        d.scientific = whole ++ (fractionText ++ exponentText) := by
  have hwhole := d.wholeText_digitChars
  have hpower := (wholeText_toDigits d.leadingExponent.natAbs).toDigits
  obtain ⟨exponent, exponentText, hexponent, hmark⟩ : ∃ exponent exponentText,
      ExponentText (some exponent) exponentText ∧
        (if d.leadingExponent < 0 then ['e', '-'] else ['e', '+']) ++
          Nat.toDigits 10 d.leadingExponent.natAbs = exponentText := by
    split
    · exact ⟨_, _, .present (.inl rfl) (.minus hpower), rfl⟩
    · exact ⟨_, _, .present (.inl rfl) (.plus hpower), rfl⟩
  unfold scientific
  dsimp only
  rw [List.append_assoc, hmark]
  split
  · next hnil => exact absurd hnil hwhole.ne_nil
  · next digit hdigit =>
    rw [hdigit] at hwhole
    exact ⟨_, none, [], _, _, hwhole, .absent, hexponent, rfl⟩
  · next digit digits hmore hdigits =>
    rw [hdigits] at hwhole
    have hdigit : WholeText [digit] :=
      ⟨⟨List.cons_ne_nil _ _, List.forall_mem_singleton.mpr (hwhole.isDigit digit (by simp))⟩,
        fun hhead => by rw [Option.some.inj hhead]⟩
    have hfraction : Digits digits :=
      ⟨fun hnil => hmore hnil, fun c hc =>
        hwhole.isDigit c (List.mem_cons_of_mem digit hc)⟩
    exact ⟨[digit], _, _, _, _, hdigit, .present hfraction, hexponent, rfl⟩

/-- In JSON a finite float is written as a number that is no integer. -/
theorem exists_numeral {x : Float} (finite : x.isFinite = true) :
    ∃ p : NumberParts, NumberText p (floatLayout.text x).toList ∧
      (p.fraction.isSome ∨ p.exponent.isSome) := by
  obtain ⟨y, hy⟩ := exists_magnitude finite
  obtain ⟨d, hzero, htext⟩ : ∃ d : Decimal, (d.digits = 0 → d.exponent = 0) ∧
      (floatLayout.text x).toList =
        if x.isNegative then '-' :: floatLayout.digits d else floatLayout.digits d := by
    refine ⟨if y.significand = 0 then ⟨0, 0⟩ else y.shortest floatLayout.tie, ?_, ?_⟩
    · split
      · exact fun _ => rfl
      · next positive => exact y.exponent_of_shortest positive
    · simp only [Layout.text, hy, String.toList_ofList]
  have hdigits (negative : Bool) : ∃ p, UnsignedText negative p (floatLayout.digits d) ∧
      (p.fraction.isSome ∨ p.exponent.isSome) := by
    unfold Layout.digits
    split
    · obtain ⟨whole, fraction, hwhole, hfraction, hparts⟩ := Decimal.exists_positional hzero
      have hwritten : d.positional floatLayout.point = whole ++ (('.' :: fraction) ++ []) := by
        rw [List.append_nil]
        exact hparts
      rw [hwritten]
      exact ⟨_, .parts hwhole (.present hfraction) .absent, .inl rfl⟩
    · obtain ⟨whole, fraction, fractionText, exponent, exponentText, hwhole, hfraction, hexponent,
        hparts⟩ := d.exists_scientific
      rw [hparts]
      exact ⟨_, .parts hwhole hfraction hexponent, .inr rfl⟩
  rw [htext]
  split
  · obtain ⟨p, hp, hother⟩ := hdigits true
    exact ⟨p, .signed hp, hother⟩
  · obtain ⟨p, hp, hother⟩ := hdigits false
    exact ⟨p, .unsigned hp, hother⟩

end Notations
end Formula
