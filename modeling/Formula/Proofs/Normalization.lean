import Formula.Parameter
import Formula.Proofs.NumberGrammar
import Formula.Proofs.NumberLiterals

/-! JSON numbers as scalars. A number without fraction and exponent is an integer where sixty-four
bits hold its value, and every other number is a float. The one exception is zero behind a minus
sign, which is kept as a float for its sign. -/
namespace Formula.Json

/-- The text holds a number of these parts, and nothing but blanks around it. -/
def NumberParts.StandsIn (p : NumberParts) (text : String) : Prop :=
  ∃ front number back, text.toList = front ++ (number ++ back) ∧
    (∀ c ∈ front, isBlank c = true) ∧ NumberText p number ∧ ∀ c ∈ back, isBlank c = true

def NumberParts.integer (p : NumberParts) : Int :=
  if p.negative then -digitsValue 10 p.whole else digitsValue 10 p.whole

def minusZero : NumberParts := ⟨true, ['0'], none, none⟩

/-- A number without fraction and exponent whose value is that of an integer; not so the zero behind
a minus sign. -/
structure NumberParts.Denotes (p : NumberParts) (k : Int64) : Prop where
  pointless : p.fraction = none
  unscaled : p.exponent = none
  value : p.integer = k.toInt
  ne_minusZero : p ≠ minusZero

inductive NumberParts.Stores (p : NumberParts) : Number → Prop where
  | natural {n : UInt64} (pointless : p.fraction = none) (unscaled : p.exponent = none)
      (positive : p.negative = false) (value : p.integer = n.toNat) : Stores p (.natural n)
  | negative {k : Int64} (denotes : p.Denotes k) : Stores p (.negative k)
  | float {x : Float} (other : ∀ k, ¬ p.Denotes k) : Stores p (.float x)

def Number.parameters (n : Number) : List Parameter := [.number n, .json (.number n)]

/-- How a text of a number is read and what it stands for: an integer exactly if it denotes one, and
otherwise a float. Whole numbers of sixty-four bits are read in any case. -/
structure Normalizes (text : String) (p : NumberParts) : Prop where
  accepted : p.fraction = none → p.exponent = none → p.integer.natAbs < 2 ^ 64 →
    ∃ n, parse? text = some (.number n)
  integer : ∀ n, parse? text = some (.number n) → ∀ q ∈ n.parameters, ∀ k,
    q.normalize? = some (.integer k) ↔ p.Denotes k
  float : ∀ n, parse? text = some (.number n) → ∀ q ∈ n.parameters,
    (∀ k, ¬ p.Denotes k) → ∃ x, q.normalize? = some (.float x)

section Reading

variable {depth : Nat} {cs text : List Char} {n : Number} {j : Json} {c : Char} {p : NumberParts}

theorem numberValue?_eq_some_iff {r : Shorter cs} : numberValue? cs = some (j, r) ↔
    ∃ p n, numberParts? cs = some (p, r.1) ∧ p.number? = some n ∧ j = .number n := by
  unfold numberValue?
  split
  · next hnone => simp [hnone]
  · next p rest hparts =>
    rw [Option.map_eq_some_iff]
    constructor
    · rintro ⟨n, hn, heq⟩
      obtain ⟨rfl, rfl⟩ := Prod.mk.inj heq
      exact ⟨p, n, hparts, hn, rfl⟩
    · rintro ⟨p', n, heq, hn, rfl⟩
      obtain ⟨rfl, rfl⟩ := Prod.mk.inj (Option.some.inj (hparts.symm.trans heq))
      exact ⟨n, hn, rfl⟩

theorem name?_ne_number {r : Shorter cs} : name? cs ≠ some (.number n, r) := by
  unfold name?
  split <;> simp

/-- Of all that is read, only a number is one. -/
theorem numberValue?_of_value? {r : Shorter cs} (h : value? depth cs = some (.number n, r)) :
    numberValue? cs = some (.number n, r) := by
  unfold value? at h
  split at h
  · simp [Option.bind_eq_some_iff] at h
  · split_ifs at h
    dsimp only at h
    split at h
    · simp at h
    · simp [Option.bind_eq_some_iff] at h
  · split_ifs at h
    dsimp only at h
    split at h
    · simp at h
    · simp [Option.bind_eq_some_iff] at h
  · rcases hname : name? cs with _ | ⟨j, r'⟩
    · rwa [hname] at h
    · rw [hname] at h
      exact absurd (hname.trans h) name?_ne_number

def startsNumber (c : Char) : Bool := c = '-' || c.isDigit

theorem NumberText.exists_cons (h : NumberText p text) :
    ∃ c cs, text = c :: cs ∧ startsNumber c = true := by
  cases h with
  | signed h => exact ⟨'-', _, rfl, rfl⟩
  | unsigned h =>
    obtain ⟨d, ds, rfl, hd⟩ := h.exists_cons
    exact ⟨d, ds, rfl, by simp [startsNumber, hd]⟩

/-- Nothing else than a number begins like one. -/
theorem value?_of_startsNumber (h : ∀ c ∈ cs.head?, startsNumber c = true) :
    value? depth cs = numberValue? cs := by
  have hname : name? cs = none := by
    unfold name?
    split
    · exact absurd (h _ rfl) (by decide)
    · exact absurd (h _ rfl) (by decide)
    · exact absurd (h _ rfl) (by decide)
    · rfl
  unfold value?
  split
  · exact absurd (h _ rfl) (by decide)
  · exact absurd (h _ rfl) (by decide)
  · exact absurd (h _ rfl) (by decide)
  · rw [hname]
    rfl

theorem value?_eq_number_iff {r : Shorter cs} : value? depth cs = some (.number n, r) ↔
    ∃ p, numberParts? cs = some (p, r.1) ∧ p.number? = some n := by
  constructor
  · intro h
    obtain ⟨p, n, hparts, hn, heq⟩ := numberValue?_eq_some_iff.mp (numberValue?_of_value? h)
    obtain rfl := Json.number.inj heq
    exact ⟨p, hparts, hn⟩
  · rintro ⟨p, hparts, hn⟩
    obtain ⟨text, htext, hcs⟩ := recognizes_numberParts.sound hparts
    obtain ⟨c, tail, rfl, hc⟩ := htext.exists_cons
    have hhead : ∀ d ∈ cs.head?, startsNumber d = true := by
      rw [hcs]
      rintro d ⟨⟩
      exact hc
    rw [value?_of_startsNumber hhead, numberValue?_eq_some_iff]
    exact ⟨p, n, hparts, hn, rfl⟩

theorem parse?_eq_number_iff_cut {text : String} : parse? text = some (.number n) ↔
    ∃ p rest, numberParts? (skipBlanks text.toList) = some (p, rest) ∧ p.number? = some n ∧
      skipBlanks rest = [] := by
  unfold parse?
  constructor
  · intro h
    split at h
    · next j rest hlt hvalue =>
      split_ifs at h with hrest
      obtain rfl := Option.some.inj h
      obtain ⟨p, hparts, hn⟩ := value?_eq_number_iff.mp hvalue
      exact ⟨p, rest, hparts, hn, hrest⟩
    · cases h
  · rintro ⟨p, rest, hparts, hn, hrest⟩
    have hvalue : value? depthLimit (skipBlanks text.toList) =
        some (.number n, ⟨rest, length_lt_of_numberParts? hparts⟩) :=
      value?_eq_number_iff.mpr ⟨p, hparts, hn⟩
    rw [hvalue]
    exact if_pos hrest

end Reading

section Standing

variable {text : String} {p p' : NumberParts} {n : Number} {c : Char}

theorem not_inNumber_of_isBlank (h : isBlank c = true) : inNumber c = false := by
  simp only [isBlank, Bool.or_eq_true, decide_eq_true_eq] at h
  rcases h with ((rfl | rfl) | rfl) | rfl <;> decide

theorem not_isBlank_of_startsNumber (h : startsNumber c = true) : isBlank c = false := by
  by_contra hblank
  rw [Bool.not_eq_false] at hblank
  have hcases := hblank
  simp only [isBlank, Bool.or_eq_true, decide_eq_true_eq] at hcases
  rcases hcases with ((rfl | rfl) | rfl) | rfl <;> exact absurd h (by decide)

theorem skipBlanks_append {front cs : List Char} (hfront : ∀ c ∈ front, isBlank c = true)
    (hcs : ∀ c ∈ cs.head?, isBlank c = false) : skipBlanks (front ++ cs) = cs := by
  rw [skipBlanks, List.dropWhile_append_of_pos hfront]
  cases cs with
  | nil => rfl
  | cons c cs => simp [hcs c rfl]

/-- Where a number stands in a text is decided by cutting the text. -/
theorem NumberParts.standsIn_iff : p.StandsIn text ↔
    ∃ rest, numberParts? (skipBlanks text.toList) = some (p, rest) ∧ skipBlanks rest = [] := by
  constructor
  · rintro ⟨front, number, back, htext, hfront, hnumber, hback⟩
    obtain ⟨c, cs, rfl, hc⟩ := hnumber.exists_cons
    have hhead : ∀ d ∈ ((c :: cs) ++ back).head?, isBlank d = false := by
      rintro d ⟨⟩
      exact not_isBlank_of_startsNumber hc
    have hends : EndsBefore inNumber back := fun d hd =>
      not_inNumber_of_isBlank (hback d (List.mem_of_mem_head? hd))
    rw [htext, skipBlanks_append hfront hhead]
    exact ⟨back, recognizes_numberParts.complete hnumber hends, List.dropWhile_eq_nil_iff.mpr hback⟩
  · rintro ⟨rest, hparts, hrest⟩
    obtain ⟨number, hnumber, hcut⟩ := recognizes_numberParts.sound hparts
    refine ⟨text.toList.takeWhile isBlank, number, rest, ?_, fun c => List.mem_takeWhile_imp,
      hnumber, List.dropWhile_eq_nil_iff.mp hrest⟩
    rw [← hcut, skipBlanks, List.takeWhile_append_dropWhile]

theorem NumberParts.StandsIn.unique (h : p.StandsIn text) (h' : p'.StandsIn text) : p = p' := by
  obtain ⟨rest, hparts, -⟩ := standsIn_iff.mp h
  obtain ⟨rest', hparts', -⟩ := standsIn_iff.mp h'
  exact congrArg Prod.fst (Option.some.inj (hparts.symm.trans hparts'))

theorem exists_standsIn (h : parse? text = some (.number n)) :
    ∃ p : NumberParts, p.StandsIn text ∧ p.number? = some n := by
  obtain ⟨p, rest, hparts, hn, hrest⟩ := parse?_eq_number_iff_cut.mp h
  exact ⟨p, NumberParts.standsIn_iff.mpr ⟨rest, hparts, hrest⟩, hn⟩

/-- A text of a number is read as the number that its parts stand for, if there is one. -/
theorem NumberParts.StandsIn.parse?_eq_number_iff (h : p.StandsIn text) :
    parse? text = some (.number n) ↔ p.number? = some n := by
  constructor
  · intro hparse
    obtain ⟨p', h', hn⟩ := exists_standsIn hparse
    rwa [h.unique h']
  · intro hn
    obtain ⟨rest, hparts, hrest⟩ := standsIn_iff.mp h
    exact parse?_eq_number_iff_cut.mpr ⟨p, rest, hparts, hn, hrest⟩

theorem NumberParts.StandsIn.wholeText (h : p.StandsIn text) : WholeText p.whole := by
  obtain ⟨front, number, back, -, -, hnumber, -⟩ := h
  cases hnumber with
  | signed h | unsigned h =>
    obtain ⟨hwhole, -, -⟩ := h
    exact hwhole

end Standing

section Values

variable {text : String} {p : NumberParts} {n : Number} {k : Int64} {digits : List Char}

theorem eq_zero_of_mem_of_digitsValue (h : ∀ d ∈ digits, d.isDigit = true)
    (hvalue : digitsValue 10 digits = 0) : ∀ d ∈ digits, d = '0' := by
  induction digits using List.reverseRecOn with
  | nil => simp
  | append_singleton digits d ih =>
    obtain ⟨hdigits, hd⟩ := List.forall_mem_append.mp h
    have hdigit := hd d (List.mem_singleton_self d)
    have hlow : '0'.toNat ≤ d.toNat := (Char.isDigit_iff_toNat.mp hdigit).1
    rw [digitsValue_append_singleton, digitValue?_of_isDigit hdigit, Option.getD_some] at hvalue
    have hlast : d.toNat = '0'.toNat := by omega
    refine List.forall_mem_append.mpr ⟨ih hdigits (by omega), ?_⟩
    rintro e he
    obtain rfl := List.mem_singleton.mp he
    exact Char.toNat_inj.mp hlast

/-- Without leading zeros, zero is written in one way. -/
theorem WholeText.eq_zero_of_digitsValue (h : WholeText digits)
    (hvalue : digitsValue 10 digits = 0) : digits = ['0'] := by
  obtain ⟨d, ds, rfl, -⟩ := h.exists_cons
  obtain rfl := eq_zero_of_mem_of_digitsValue h.isDigit hvalue d List.mem_cons_self
  exact h.eq_zero rfl

theorem NumberParts.Denotes.unique {k' : Int64} (h : p.Denotes k) (h' : p.Denotes k') : k = k' :=
  Int64.toInt_inj.mp (h.value.symm.trans h'.value)

theorem NumberParts.Denotes.some_eq_some_iff {k' : Int64} (h : p.Denotes k) :
    some k = some k' ↔ p.Denotes k' := by
  refine ⟨fun hk => ?_, fun hk => congrArg some (h.unique hk)⟩
  obtain rfl := Option.some.inj hk
  exact h

theorem NumberParts.not_denotes_of_large (h : p.integer < -2 ^ 63 ∨ 2 ^ 63 ≤ p.integer) :
    ∀ k, ¬ p.Denotes k := by
  intro k hk
  have hlow := k.le_toInt
  have hhigh := k.toInt_lt
  rw [← hk.value] at hlow hhigh
  omega

theorem NumberParts.eq_minusZero (hnegative : p.negative = true) (hwhole : p.whole = ['0'])
    (hpointless : p.fraction = none) (hunscaled : p.exponent = none) : p = minusZero :=
  calc p = ⟨p.negative, p.whole, p.fraction, p.exponent⟩ := rfl
    _ = minusZero := by rw [hnegative, hwhole, hpointless, hunscaled, minusZero]

theorem NumberParts.number?_eq (hwhole : WholeText p.whole) : p.number? =
    if p.fraction.isSome ∨ p.exponent.isSome ∨ 2 ^ 64 ≤ digitsValue 10 p.whole then
      p.float?.map .float
    else if p.negative then
      if 0 < digitsValue 10 p.whole ∧ digitsValue 10 p.whole ≤ 2 ^ 63 then
        some (.negative (Int64.ofInt (-digitsValue 10 p.whole)))
      else some (.float (Float.nearest true (digitsValue 10 p.whole) 1))
    else some (.natural (UInt64.ofNat (digitsValue 10 p.whole))) := by
  have hpow : Nat.pow 2 63 = 2 ^ 63 ∧ Nat.pow 2 64 = 2 ^ 64 := ⟨rfl, rfl⟩
  have hvalue : Nat.ofDigitChars 10 p.whole 0 = digitsValue 10 p.whole :=
    ofDigits_eq_digitsValue hwhole.isDigit
  simp only [number?, hvalue, hpow, ite_not]

/-- A number is stored as a float only if it denotes no integer. -/
theorem NumberParts.stores_of_number? (hwhole : WholeText p.whole) (h : p.number? = some n) :
    p.Stores n := by
  rw [number?_eq hwhole] at h
  split_ifs at h with hother hnegative hrange
  · obtain ⟨x, -, rfl⟩ := Option.map_eq_some_iff.mp h
    refine .float fun k hk => ?_
    have hlarge : 2 ^ 64 ≤ digitsValue 10 p.whole := by
      simpa [hk.pointless, hk.unscaled] using hother
    refine not_denotes_of_large ?_ k hk
    unfold integer
    split_ifs <;> omega
  all_goals
    obtain rfl := Option.some.inj h
    simp only [not_or, Option.not_isSome_iff_eq_none, not_le] at hother
    obtain ⟨hpointless, hunscaled, hsmall⟩ := hother
  · have hlow : -2 ^ 63 ≤ -(digitsValue 10 p.whole : Int) := by omega
    have hhigh : -(digitsValue 10 p.whole : Int) < 2 ^ 63 := by omega
    refine .negative ⟨hpointless, hunscaled, ?_, ?_⟩
    · rw [integer, if_pos hnegative, Int64.toInt_ofInt_of_le hlow hhigh]
    · rintro rfl
      exact absurd hrange.1 (by decide)
  · refine .float fun k hk => ?_
    by_cases hzero : digitsValue 10 p.whole = 0
    · have hwritten := hwhole.eq_zero_of_digitsValue hzero
      exact hk.ne_minusZero (eq_minusZero hnegative hwritten hpointless hunscaled)
    · refine not_denotes_of_large (.inl ?_) k hk
      rw [integer, if_pos hnegative]
      omega
  · refine .natural hpointless hunscaled (Bool.eq_false_of_not_eq_true hnegative) ?_
    rw [integer, if_neg hnegative, UInt64.toNat_ofNat_of_lt' hsmall]

theorem NumberParts.exists_number? (hwhole : WholeText p.whole) (hpointless : p.fraction = none)
    (hunscaled : p.exponent = none) (hsmall : p.integer.natAbs < 2 ^ 64) :
    ∃ n, p.number? = some n := by
  have hlt : digitsValue 10 p.whole < 2 ^ 64 := by
    unfold integer at hsmall
    split_ifs at hsmall <;> omega
  rw [number?_eq hwhole, hpointless, hunscaled, if_neg (by simpa using hlt)]
  split_ifs <;> exact ⟨_, rfl⟩

/-- What is stored of a number holds an integer exactly if the number denotes one. -/
theorem NumberParts.Stores.toInt64?_eq_some_iff (h : p.Stores n) :
    n.toInt64? = some k ↔ p.Denotes k := by
  have hpow : Nat.pow 2 63 = 2 ^ 63 := rfl
  cases h with
  | float other => exact iff_of_false (by rintro ⟨⟩) (other k)
  | negative denotes => exact denotes.some_eq_some_iff
  | @natural m pointless unscaled positive value =>
    rw [Number.toInt64?, hpow]
    split_ifs with hsmall
    · have hm : p.Denotes (Int64.ofNat m.toNat) := by
        refine ⟨pointless, unscaled, value.trans (Int64.toInt_ofNat_of_lt hsmall).symm, ?_⟩
        rintro rfl
        cases positive
      exact hm.some_eq_some_iff
    · exact iff_of_false (by rintro ⟨⟩) (not_denotes_of_large (.inr (by omega)) k)

theorem Number.normalize_eq_integer_iff : n.normalize = .integer k ↔ n.toInt64? = some k := by
  rw [Number.normalize]
  cases n.toInt64? with
  | none => simp
  | some m => simp

theorem Number.normalize_eq_float (h : ∀ k, n.toInt64? ≠ some k) :
    n.normalize = .float n.toFloat := by
  rw [Number.normalize, Option.eq_none_iff_forall_ne_some.mpr h]

theorem Number.normalize?_of_mem {q : Parameter} (h : q ∈ n.parameters) :
    q.normalize? = some n.normalize := by
  simp only [Number.parameters, List.mem_cons, List.not_mem_nil, or_false] at h
  rcases h with rfl | rfl <;> rfl

/-- JSON numbers are integers where they denote one, and floats otherwise. -/
theorem number_normalizes (text : String) :
    (∀ n, parse? text = some (.number n) → ∃ p : NumberParts, p.StandsIn text) ∧
      ∀ p : NumberParts, p.StandsIn text → Normalizes text p := by
  refine ⟨fun n h => (exists_standsIn h).imp fun p hp => hp.1, fun p hp => ?_⟩
  have hstores : ∀ n, parse? text = some (.number n) → p.Stores n := fun n hn =>
    NumberParts.stores_of_number? hp.wholeText (hp.parse?_eq_number_iff.mp hn)
  refine ⟨fun hpointless hunscaled hsmall => ?_, fun n hn q hq k => ?_, fun n hn q hq hother => ?_⟩
  · obtain ⟨n, hn⟩ := NumberParts.exists_number? hp.wholeText hpointless hunscaled hsmall
    exact ⟨n, hp.parse?_eq_number_iff.mpr hn⟩
  · rw [Number.normalize?_of_mem hq, Option.some.injEq, Number.normalize_eq_integer_iff,
      (hstores n hn).toInt64?_eq_some_iff]
  · have hnone : ∀ k, n.toInt64? ≠ some k := fun k hk =>
      hother k ((hstores n hn).toInt64?_eq_some_iff.mp hk)
    exact ⟨n.toFloat, by rw [Number.normalize?_of_mem hq, Number.normalize_eq_float hnone]⟩

/-- The least integer is one, although its digits alone are out of range. -/
theorem leastInteger_normalized : ∃ n, parse? " -9223372036854775808" = some (.number n) ∧
    ∀ q ∈ n.parameters, q.normalize? = some (.integer Int64.minValue) := by
  have hwhole : WholeText "9223372036854775808".toList :=
    ⟨⟨by decide, List.all_eq_true.mp (by decide +kernel)⟩, by decide +kernel⟩
  have hstands : NumberParts.StandsIn ⟨true, "9223372036854775808".toList, none, none⟩
      " -9223372036854775808" :=
    ⟨[' '], _, [], by decide +kernel, by simp [isBlank], .signed (.parts hwhole .absent .absent),
      by simp⟩
  have hnormalizes := (number_normalizes _).2 _ hstands
  obtain ⟨n, hn⟩ := hnormalizes.accepted rfl rfl (by decide +kernel)
  refine ⟨n, hn, fun q hq => (hnormalizes.integer n hn q hq _).mpr ⟨rfl, rfl, ?_, ?_⟩⟩
  · decide +kernel
  · decide +kernel

/-- Zero behind a minus sign is a float, although it has neither fraction nor exponent. -/
theorem minusZero_float : ¬ ∀ (text : String) (p : NumberParts) (n : Number), p.StandsIn text →
    parse? text = some (.number n) → ∀ q ∈ n.parameters, ∀ k : Int64,
      q.normalize? = some (.integer k) ↔
        p.fraction = none ∧ p.exponent = none ∧ p.integer = k.toInt := by
  intro h
  have hwhole : WholeText ['0'] := ⟨⟨by decide, List.all_eq_true.mp (by decide)⟩, by decide⟩
  have hstands : minusZero.StandsIn "-0" :=
    ⟨[], _, [], by decide +kernel, by simp, .signed (.parts hwhole .absent .absent), by simp⟩
  have hread : parse? "-0" = some (.number (.float (Float.nearest true 0 1))) :=
    hstands.parse?_eq_number_iff.mpr rfl
  have hinteger := (h _ _ _ hstands hread (.number _) List.mem_cons_self 0).mpr
    ⟨rfl, rfl, by decide⟩
  cases hinteger

end Values
end Formula.Json
