import Formula.Json

/-!
Reading JSON numbers. A numeral is first cut into its parts, which decides whether it is one, and
the parts are then given a value: whole numbers of sixty-four bits stay whole, and all others
become floats, a float too large to be finite being no number.
-/

namespace Formula.Json

structure NumberParts where
  negative : Bool
  whole : List Char
  fraction : Option (List Char)
  /-- Whether the power of ten is negative, and its digits, if there is one. -/
  exponent : Option (Bool × List Char)
  deriving DecidableEq, Repr

def digits? (cs : List Char) : Option (List Char × List Char) :=
  if (cs.takeWhile Char.isDigit).isEmpty then none
  else some (cs.takeWhile Char.isDigit, cs.dropWhile Char.isDigit)

def fractionPart? : List Char → Option (Option (List Char) × List Char)
  | '.' :: cs => (digits? cs).map fun (digits, rest) => (some digits, rest)
  | cs => some (none, cs)

def powerDigits? : List Char → Option ((Bool × List Char) × List Char)
  | '-' :: cs => (digits? cs).map fun (digits, rest) => ((true, digits), rest)
  | '+' :: cs => (digits? cs).map fun (digits, rest) => ((false, digits), rest)
  | cs => (digits? cs).map fun (digits, rest) => ((false, digits), rest)

def exponentPart? (cs : List Char) : Option (Option (Bool × List Char) × List Char) :=
  if cs.head? = some 'e' ∨ cs.head? = some 'E' then
    (powerDigits? cs.tail).map fun (power, rest) => (some power, rest)
  else some (none, cs)

/-- The digits before the point; several digits do not start with a zero. -/
def wholePart? (cs : List Char) : Option (List Char × List Char) :=
  (digits? cs).filter fun (digits, _) => digits.head? ≠ some '0' || digits = ['0']

def unsignedParts? (negative : Bool) (cs : List Char) : Option (NumberParts × List Char) := do
  let (whole, cs) ← wholePart? cs
  let (fraction, cs) ← fractionPart? cs
  let (exponent, cs) ← exponentPart? cs
  pure (⟨negative, whole, fraction, exponent⟩, cs)

def numberParts? : List Char → Option (NumberParts × List Char)
  | '-' :: cs => unsignedParts? true cs
  | cs => unsignedParts? false cs

/-- Appends digits to a number for as long as it stays below `2 ^ 64`; the second part counts the
digits that were taken. -/
def absorb (significand : Nat) : List Char → Nat × Nat
  | [] => (significand, 0)
  | digit :: digits =>
    let longer := significand * 10 + (digit.toNat - '0'.toNat)
    if longer < Nat.pow 2 64 then
      let (significand, taken) := absorb longer digits
      (significand, taken + 1)
    else (significand, 0)

/-- Divides by a power of ten, in steps that keep each divisor finite. -/
def divideDown (x : Float) (power : Nat) : Float :=
  if power ≤ 308 then x / (Decimal.toFloat false ⟨1, power⟩)
  else if x == 0.0 then x
  else divideDown (x / (Decimal.toFloat false ⟨1, 308⟩)) (power - 308)
termination_by power

/-- A float times a power of ten; `none` if the result is not finite. -/
def scale? (x : Float) (exponent : Int) : Option Float :=
  if exponent < 0 then some (divideDown x exponent.natAbs)
  else if exponent ≤ 308 then
    let scaled := x * Decimal.toFloat false ⟨1, exponent⟩
    if scaled.isFinite then some scaled else none
  else if x == 0.0 then some x else none

namespace NumberParts

/-- The float that the parts stand for. The significand keeps the leading digits that fit into
sixty-four bits; further whole digits count in the exponent only, and further digits after the
point are dropped. -/
def float? (p : NumberParts) : Option Float :=
  let (significand, taken) := absorb 0 p.whole
  let dropped := p.whole.length - taken
  let (significand, places) := absorb significand (p.fraction.getD [])
  let start : Int := (dropped : Int) - places
  let power : Int := match p.exponent with
    | none => 0
    | some (true, digits) => -(Nat.ofDigitChars 10 digits 0 : Int)
    | some (false, digits) => Nat.ofDigitChars 10 digits 0
  let magnitude := Float.nearest false significand 1
  let scaled := if power.natAbs < Nat.pow 2 31 then scale? magnitude (start + power)
    else if significand = 0 ∨ power < 0 then some 0.0
    else none
  scaled.map fun x => if p.negative then -x else x

/-- The number that the parts stand for. The text `-0` stands for the float `-0.0`. -/
def number? (p : NumberParts) : Option Number :=
  let whole := Nat.ofDigitChars 10 p.whole 0
  if p.fraction.isSome ∨ p.exponent.isSome ∨ Nat.pow 2 64 ≤ whole then p.float?.map .float
  else if ¬ p.negative then some (.natural (UInt64.ofNat whole))
  else if 0 < whole ∧ whole ≤ Nat.pow 2 63 then some (.negative (Int64.ofInt (-whole)))
  else some (.float (Float.nearest true whole 1))

end NumberParts

def number? (cs : List Char) : Option Number :=
  match numberParts? cs with
  | some (p, []) => p.number?
  | _ => none

theorem length_lt_of_digits? {cs digits rest : List Char} (h : digits? cs = some (digits, rest)) :
    rest.length < cs.length := by
  unfold digits? at h
  split at h
  · simp at h
  · next hne =>
    have hsum := congrArg List.length (List.takeWhile_append_dropWhile (p := Char.isDigit) (l := cs))
    simp only [Option.some.injEq, Prod.mk.injEq] at h
    simp only [List.isEmpty_iff] at hne
    have hpos := List.length_pos_iff.mpr hne
    simp only [List.length_append] at hsum
    rw [← h.2]
    omega

theorem length_lt_of_wholePart? {cs digits rest : List Char}
    (h : wholePart? cs = some (digits, rest)) : rest.length < cs.length := by
  exact length_lt_of_digits? (Option.filter_eq_some_iff.mp h).1

theorem length_le_of_fractionPart? {cs rest : List Char} {fraction : Option (List Char)}
    (h : fractionPart? cs = some (fraction, rest)) : rest.length ≤ cs.length := by
  unfold fractionPart? at h
  split at h
  · obtain ⟨⟨digits, tail⟩, hd, heq⟩ := Option.map_eq_some_iff.mp h
    have hlt := length_lt_of_digits? hd
    simp only [Prod.mk.injEq] at heq
    rw [← heq.2, List.length_cons]
    omega
  · simp only [Option.some.injEq, Prod.mk.injEq] at h
    simp [h.2]

theorem length_le_of_powerDigits? {cs rest : List Char} {power : Bool × List Char}
    (h : powerDigits? cs = some (power, rest)) : rest.length ≤ cs.length := by
  unfold powerDigits? at h
  split at h <;>
  · obtain ⟨⟨digits, tail⟩, hd, heq⟩ := Option.map_eq_some_iff.mp h
    have hlt := length_lt_of_digits? hd
    simp only [Prod.mk.injEq] at heq
    simp only [← heq.2, List.length_cons]
    omega

theorem length_le_of_exponentPart? {cs rest : List Char} {exponent : Option (Bool × List Char)}
    (h : exponentPart? cs = some (exponent, rest)) : rest.length ≤ cs.length := by
  unfold exponentPart? at h
  split at h
  · obtain ⟨⟨power, tail⟩, hd, heq⟩ := Option.map_eq_some_iff.mp h
    have hle := length_le_of_powerDigits? hd
    simp only [Prod.mk.injEq] at heq
    simp only [← heq.2, List.length_tail] at hle ⊢
    omega
  · simp only [Option.some.injEq, Prod.mk.injEq] at h
    simp [h.2]

theorem length_lt_of_unsignedParts? {negative : Bool} {cs rest : List Char} {p : NumberParts}
    (h : unsignedParts? negative cs = some (p, rest)) : rest.length < cs.length := by
  simp only [unsignedParts?, Option.bind_eq_bind, Option.bind_eq_some_iff, Option.pure_def,
    Option.some.injEq, Prod.mk.injEq] at h
  obtain ⟨⟨whole, cs₁⟩, hw, ⟨fraction, cs₂⟩, hf, ⟨exponent, cs₃⟩, he, -, rfl⟩ := h
  have hwhole : cs₁.length < cs.length := length_lt_of_wholePart? hw
  have hfraction : cs₂.length ≤ cs₁.length := length_le_of_fractionPart? hf
  have hexponent : cs₃.length ≤ cs₂.length := length_le_of_exponentPart? he
  show cs₃.length < cs.length
  omega

/-- A number takes at least one character. -/
theorem length_lt_of_numberParts? {cs rest : List Char} {p : NumberParts}
    (h : numberParts? cs = some (p, rest)) : rest.length < cs.length := by
  unfold numberParts? at h
  split at h
  · have := length_lt_of_unsignedParts? h
    simp only [List.length_cons]
    omega
  · exact length_lt_of_unsignedParts? h

end Formula.Json
