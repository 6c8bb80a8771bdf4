import Mathlib.Data.List.TakeWhile
import Formula.Json.Number
import Formula.Proofs.Lexemes

/-! The grammar of JSON numbers. Each part of a number has a reader of its own, which takes a text
of that part and nothing else, and takes it whole where no character behind goes on with it. -/
namespace Formula.Json

structure Digits (digits : List Char) : Prop where
  ne_nil : digits ≠ []
  isDigit : ∀ d ∈ digits, d.isDigit = true

/-- The digits before the point; several digits do not start with a zero. -/
structure WholeText (digits : List Char) : Prop extends Digits digits where
  eq_zero : digits.head? = some '0' → digits = ['0']

inductive FractionText : Option (List Char) → List Char → Prop where
  | absent : FractionText none []
  | present {digits : List Char} (h : Digits digits) : FractionText (some digits) ('.' :: digits)

inductive PowerText : Bool × List Char → List Char → Prop where
  | bare {digits : List Char} (h : Digits digits) : PowerText (false, digits) digits
  | plus {digits : List Char} (h : Digits digits) : PowerText (false, digits) ('+' :: digits)
  | minus {digits : List Char} (h : Digits digits) : PowerText (true, digits) ('-' :: digits)

inductive ExponentText : Option (Bool × List Char) → List Char → Prop where
  | absent : ExponentText none []
  | present {mark : Char} {power : Bool × List Char} {text : List Char}
      (hmark : mark = 'e' ∨ mark = 'E') (h : PowerText power text) :
      ExponentText (some power) (mark :: text)

inductive UnsignedText (negative : Bool) : NumberParts → List Char → Prop where
  | parts {whole fractionText exponentText : List Char} {fraction : Option (List Char)}
      {exponent : Option (Bool × List Char)} (hwhole : WholeText whole)
      (hfraction : FractionText fraction fractionText)
      (hexponent : ExponentText exponent exponentText) :
      UnsignedText negative ⟨negative, whole, fraction, exponent⟩
        (whole ++ (fractionText ++ exponentText))

inductive NumberText : NumberParts → List Char → Prop where
  | unsigned {p : NumberParts} {text : List Char} (h : UnsignedText false p text) :
      NumberText p text
  | signed {p : NumberParts} {text : List Char} (h : UnsignedText true p text) :
      NumberText p ('-' :: text)

/-- A text that does not go on with what stands in front of it. -/
def EndsBefore (more : Char → Bool) (tail : List Char) : Prop := ∀ c ∈ tail.head?, more c = false

/-- A reader takes texts of a grammar only, and takes each of them whole. -/
structure Recognizes {α : Type} (read : List Char → Option (α × List Char))
    (grammar : α → List Char → Prop) (more : Char → Bool) : Prop where
  sound : ∀ {cs rest a}, read cs = some (a, rest) → ∃ text, grammar a text ∧ cs = text ++ rest
  complete : ∀ {a text tail}, grammar a text → EndsBefore more tail →
    read (text ++ tail) = some (a, tail)

/-- What goes on with the digits behind the point, or begins them. -/
def inFraction (c : Char) : Bool := c.isDigit || c = '.'

/-- What goes on with a power of ten, or begins it. -/
def inExponent (c : Char) : Bool := c.isDigit || c = 'e' || c = 'E'

def inNumber (c : Char) : Bool := inFraction c || inExponent c

section Readers

variable {more : Char → Bool} {digits text tail : List Char} {c : Char}

theorem EndsBefore.cons (h : more c = false) (tail : List Char) : EndsBefore more (c :: tail) := by
  rintro d ⟨⟩
  exact h

theorem EndsBefore.left {other : Char → Bool} (h : EndsBefore (fun c => more c || other c) tail) :
    EndsBefore more tail :=
  fun c hc => (Bool.or_eq_false_iff.mp (h c hc)).1

theorem EndsBefore.right {other : Char → Bool} (h : EndsBefore (fun c => more c || other c) tail) :
    EndsBefore other tail :=
  fun c hc => (Bool.or_eq_false_iff.mp (h c hc)).2

theorem Digits.exists_cons (h : Digits digits) :
    ∃ d ds, digits = d :: ds ∧ d.isDigit = true := by
  obtain ⟨d, ds, rfl⟩ := List.exists_cons_of_ne_nil h.ne_nil
  exact ⟨d, ds, rfl, h.isDigit d List.mem_cons_self⟩

theorem recognizes_digits :
    Recognizes digits? (fun digits text => Digits digits ∧ digits = text) Char.isDigit where
  sound {cs rest digits} h := by
    unfold digits? at h
    split_ifs at h with hnil
    obtain ⟨rfl, rfl⟩ := Prod.mk.inj (Option.some.inj h)
    refine ⟨_, ⟨⟨?_, fun d => List.mem_takeWhile_imp⟩, rfl⟩, List.takeWhile_append_dropWhile.symm⟩
    simpa using hnil
  complete {digits text tail} h hends := by
    obtain ⟨hdigits, rfl⟩ := h
    obtain ⟨htake, hdrop⟩ := takeWhile_append_of_stop fun _ => hends
    have hall : digits.takeWhile Char.isDigit = digits :=
      List.takeWhile_eq_self_iff.mpr hdigits.isDigit
    have hnone : digits.dropWhile Char.isDigit = [] :=
      List.dropWhile_eq_nil_iff.mpr hdigits.isDigit
    rw [digits?, htake, hdrop, hall, hnone, if_neg (by simpa using hdigits.ne_nil)]
    rfl

theorem recognizes_wholePart :
    Recognizes wholePart? (fun digits text => WholeText digits ∧ digits = text) Char.isDigit where
  sound {cs rest digits} h := by
    obtain ⟨hread, hzero⟩ := Option.filter_eq_some_iff.mp h
    obtain ⟨text, ⟨hdigits, rfl⟩, rfl⟩ := recognizes_digits.sound hread
    refine ⟨_, ⟨⟨hdigits, fun hhead => ?_⟩, rfl⟩, rfl⟩
    simpa [hhead] using hzero
  complete {digits text tail} h hends := by
    obtain ⟨hwhole, rfl⟩ := h
    have hread := recognizes_digits.complete ⟨hwhole.toDigits, rfl⟩ hends
    refine Option.filter_eq_some_iff.mpr ⟨hread, ?_⟩
    simpa [or_iff_not_imp_left] using hwhole.eq_zero

theorem recognizes_fractionPart : Recognizes fractionPart? FractionText inFraction where
  sound {cs rest fraction} h := by
    unfold fractionPart? at h
    split at h
    · obtain ⟨⟨digits, tail⟩, hread, heq⟩ := Option.map_eq_some_iff.mp h
      obtain ⟨rfl, rfl⟩ := Prod.mk.inj heq
      obtain ⟨text, ⟨hdigits, rfl⟩, rfl⟩ := recognizes_digits.sound hread
      exact ⟨_, .present hdigits, rfl⟩
    · obtain ⟨rfl, rfl⟩ := Prod.mk.inj (Option.some.inj h)
      exact ⟨[], .absent, rfl⟩
  complete {fraction text tail} h hends := by
    cases h with
    | absent =>
      rw [List.nil_append]
      unfold fractionPart?
      split
      · exact absurd (hends '.' rfl) (by decide)
      · rfl
    | present hdigits =>
      have hread := recognizes_digits.complete ⟨hdigits, rfl⟩ hends.left
      rw [List.cons_append, fractionPart?, hread]
      rfl

theorem recognizes_powerDigits : Recognizes powerDigits? PowerText Char.isDigit where
  sound {cs rest power} h := by
    unfold powerDigits? at h
    split at h
    all_goals
      obtain ⟨⟨digits, tail⟩, hread, heq⟩ := Option.map_eq_some_iff.mp h
      obtain ⟨rfl, rfl⟩ := Prod.mk.inj heq
      obtain ⟨text, ⟨hdigits, rfl⟩, rfl⟩ := recognizes_digits.sound hread
    · exact ⟨_, .minus hdigits, rfl⟩
    · exact ⟨_, .plus hdigits, rfl⟩
    · exact ⟨_, .bare hdigits, rfl⟩
  complete {power text tail} h hends := by
    have hread : ∀ {digits}, Digits digits → digits? (digits ++ tail) = some (digits, tail) :=
      fun hdigits => recognizes_digits.complete ⟨hdigits, rfl⟩ hends
    cases h with
    | plus hdigits | minus hdigits =>
      rw [List.cons_append, powerDigits?, hread hdigits]
      rfl
    | bare hdigits =>
      obtain ⟨d, ds, rfl, hd⟩ := hdigits.exists_cons
      unfold powerDigits?
      split
      · next heq =>
        obtain ⟨rfl, -⟩ := List.cons.inj heq
        exact absurd hd (by decide)
      · next heq =>
        obtain ⟨rfl, -⟩ := List.cons.inj heq
        exact absurd hd (by decide)
      · rw [hread hdigits]
        rfl

theorem recognizes_exponentPart : Recognizes exponentPart? ExponentText inExponent where
  sound {cs rest exponent} h := by
    unfold exponentPart? at h
    split_ifs at h with hmark
    · obtain ⟨⟨power, tail⟩, hread, heq⟩ := Option.map_eq_some_iff.mp h
      obtain ⟨rfl, rfl⟩ := Prod.mk.inj heq
      obtain ⟨text, hpower, htail⟩ := recognizes_powerDigits.sound hread
      cases cs with
      | nil => simp at hmark
      | cons mark cs =>
        obtain rfl : cs = text ++ tail := htail
        exact ⟨_, .present (by simpa using hmark) hpower, rfl⟩
    · obtain ⟨rfl, rfl⟩ := Prod.mk.inj (Option.some.inj h)
      exact ⟨[], .absent, rfl⟩
  complete {exponent text tail} h hends := by
    cases h with
    | absent =>
      have hmark : ¬ (tail.head? = some 'e' ∨ tail.head? = some 'E') := by
        rintro (hhead | hhead)
        · exact absurd (hends 'e' hhead) (by decide)
        · exact absurd (hends 'E' hhead) (by decide)
      rw [List.nil_append, exponentPart?, if_neg hmark]
    | present hmark hpower =>
      have hread := recognizes_powerDigits.complete hpower hends.left.left
      rw [List.cons_append, exponentPart?, if_pos (by simpa using hmark), List.tail_cons, hread]
      rfl

theorem FractionText.ends {fraction : Option (List Char)} (h : FractionText fraction text)
    (hends : EndsBefore Char.isDigit tail) : EndsBefore Char.isDigit (text ++ tail) := by
  cases h with
  | absent => exact hends
  | present _ => exact .cons (by decide) _

theorem ExponentText.ends {exponent : Option (Bool × List Char)} (h : ExponentText exponent text)
    (hends : EndsBefore inFraction tail) : EndsBefore inFraction (text ++ tail) := by
  cases h with
  | absent => exact hends
  | present hmark _ => rcases hmark with rfl | rfl <;> exact .cons (by decide) _

theorem recognizes_unsignedParts (negative : Bool) :
    Recognizes (unsignedParts? negative) (UnsignedText negative) inNumber where
  sound {cs rest p} h := by
    simp only [unsignedParts?, Option.bind_eq_bind, Option.bind_eq_some_iff, Option.pure_def] at h
    obtain ⟨⟨whole, cs₁⟩, hw, ⟨fraction, cs₂⟩, hf, ⟨exponent, cs₃⟩, he, heq⟩ := h
    obtain ⟨rfl, rfl⟩ := Prod.mk.inj (Option.some.inj heq)
    obtain ⟨_, ⟨hwhole, rfl⟩, rfl⟩ := recognizes_wholePart.sound hw
    obtain ⟨fractionText, hfraction, htail⟩ := recognizes_fractionPart.sound hf
    obtain ⟨exponentText, hexponent, hrest⟩ := recognizes_exponentPart.sound he
    obtain rfl : cs₁ = fractionText ++ cs₂ := htail
    obtain rfl : cs₂ = exponentText ++ cs₃ := hrest
    exact ⟨_, .parts hwhole hfraction hexponent, by simp only [List.append_assoc]⟩
  complete {p text tail} h hends := by
    obtain ⟨hwhole, hfraction, hexponent⟩ := h
    have hfractionEnds := hexponent.ends hends.left
    have hwholeEnds := hfraction.ends hfractionEnds.left
    simp only [unsignedParts?, List.append_assoc, Option.bind_eq_bind,
      recognizes_wholePart.complete ⟨hwhole, rfl⟩ hwholeEnds, Option.bind_some,
      recognizes_fractionPart.complete hfraction hfractionEnds,
      recognizes_exponentPart.complete hexponent hends.right, Option.pure_def]

theorem UnsignedText.exists_cons {negative : Bool} {p : NumberParts}
    (h : UnsignedText negative p text) : ∃ d ds, text = d :: ds ∧ d.isDigit = true := by
  obtain ⟨hwhole, -, -⟩ := h
  obtain ⟨d, ds, rfl, hd⟩ := hwhole.exists_cons
  exact ⟨d, _, rfl, hd⟩

/-- A number is cut into its parts exactly as it is written. -/
theorem recognizes_numberParts : Recognizes numberParts? NumberText inNumber where
  sound {cs rest p} h := by
    unfold numberParts? at h
    split at h
    · obtain ⟨text, htext, rfl⟩ := (recognizes_unsignedParts true).sound h
      exact ⟨_, .signed htext, rfl⟩
    · obtain ⟨text, htext, rfl⟩ := (recognizes_unsignedParts false).sound h
      exact ⟨_, .unsigned htext, rfl⟩
  complete {p text tail} h hends := by
    cases h with
    | signed htext => exact (recognizes_unsignedParts true).complete htext hends
    | unsigned htext =>
      have hread := (recognizes_unsignedParts false).complete htext hends
      obtain ⟨d, ds, rfl, hd⟩ := htext.exists_cons
      unfold numberParts?
      split
      · next heq =>
        obtain ⟨rfl, -⟩ := List.cons.inj heq
        exact absurd hd (by decide)
      · exact hread

end Readers
end Formula.Json
