import Mathlib.Data.List.Induction
import Mathlib.Data.List.TakeWhile
import Mathlib.Data.Nat.Digits.Defs
import Mathlib.Tactic.SplitIfs
import Formula.Token.Escape

/-! How characters are spelled between quotes: as themselves, or as an escape that a backslash
begins. An escape is decoded exactly where one of its forms stands, and no spelling begins a longer
one. -/
namespace Formula

def simpleEscapes : List (Char × Char) :=
  [('a', '\x07'), ('b', '\x08'), ('f', '\x0c'), ('n', '\n'), ('r', '\r'), ('t', '\t'),
    ('v', '\x0b'), ('\\', '\\'), ('\x27', '\x27'), ('\x22', '\x22')]

def hexEscapes : List (Char × Nat) := [('x', 2), ('u', 4), ('U', 8)]

/-- The number that digits of a base stand for, the highest one first. -/
def digitsValue (base : Nat) (digits : List Char) : Nat :=
  Nat.ofDigits base (digits.reverse.map fun d => (Text.digitValue? base d).getD 0)

structure Coded (base count : Nat) (digits : List Char) (c : Char) : Prop where
  length : digits.length = count
  inBase : ∀ d ∈ digits, (Text.digitValue? base d).isSome = true
  value : digitsValue base digits = c.toNat

instance (base count : Nat) (digits : List Char) (c : Char) :
    Decidable (Coded base count digits c) :=
  decidable_of_iff (digits.length = count ∧
      (digits.all fun d => (Text.digitValue? base d).isSome) = true ∧
      digitsValue base digits = c.toNat)
    ⟨fun h => ⟨h.1, List.all_eq_true.mp h.2.1, h.2.2⟩,
      fun h => ⟨h.length, List.all_eq_true.mpr h.inBase, h.value⟩⟩

inductive Escapes : List Char → Char → Prop where
  | simple {letter c : Char} (listed : (letter, c) ∈ simpleEscapes) : Escapes ['\\', letter] c
  | octal {digits : List Char} {c : Char} (coded : Coded 8 3 digits c) (small : c.toNat ≤ 255) :
      Escapes ('\\' :: digits) c
  | hex {letter c : Char} {count : Nat} {digits : List Char}
      (listed : (letter, count) ∈ hexEscapes) (coded : Coded 16 count digits c) :
      Escapes ('\\' :: letter :: digits) c

inductive Spells (quote : Char) : List Char → Char → Prop where
  | plain {c : Char} (unquoted : c ≠ quote) (unescaped : c ≠ '\\') : Spells quote [c] c
  | escape {text : List Char} {c : Char} (escapes : Escapes text c) : Spells quote text c

section Digits

variable {base : Nat} {digits : List Char} {d : Char}

theorem digitsValue_append_singleton (base : Nat) (digits : List Char) (d : Char) :
    digitsValue base (digits ++ [d]) =
      digitsValue base digits * base + (Text.digitValue? base d).getD 0 := by
  rw [digitsValue, List.reverse_append, List.reverse_singleton, List.singleton_append,
    List.map_cons, Nat.ofDigits_cons, ← digitsValue, Nat.add_comm, Nat.mul_comm]

theorem digitValue?_digitChar (n : Nat) :
    Text.digitValue? 16 (Nat.digitChar (n % 16)) = some (n % 16) := by
  have hall : ∀ n < 16, Text.digitValue? 16 (Nat.digitChar n) = some n := by decide
  exact hall (n % 16) (Nat.mod_lt n (by decide))

theorem getD_digitValue?_lt (hbase : 0 < base) (d : Char) :
    (Text.digitValue? base d).getD 0 < base := by
  cases hd : Text.digitValue? base d with
  | none => exact hbase
  | some value => exact Text.lt_of_digitValue? hd

theorem digitsValue_lt (hbase : 1 < base) (digits : List Char) :
    digitsValue base digits < base ^ digits.length := by
  have hdigits : ∀ v ∈ digits.reverse.map fun d => (Text.digitValue? base d).getD 0, v < base := by
    intro v hv
    obtain ⟨d, _, rfl⟩ := List.mem_map.mp hv
    exact getD_digitValue?_lt (by omega) d
  simpa [digitsValue] using Nat.ofDigits_lt_base_pow_length hbase hdigits

end Digits

namespace EscapeFamily

def all : List EscapeFamily := [octal, byte, short, long]

variable {f : EscapeFamily} {opening cs digits : List Char} {e : Escape} {c : Char}

/-- The digits of a family have room in a word of thirty-two bits. -/
theorem bounds_of_mem_all (h : f ∈ all) :
    1 < f.base ∧ f.base < 2 ^ 32 ∧ f.base ^ f.digits ≤ 2 ^ 32 := by
  have hall : ∀ f ∈ all, 1 < f.base ∧ f.base < 2 ^ 32 ∧ f.base ^ f.digits ≤ 2 ^ 32 := by decide
  exact hall f h

/-- No more digits than the family has stand for a number that has room in a word. -/
theorem digitsValue_lt_two_pow (h : f ∈ all) (hdigits : digits.length ≤ f.digits) :
    digitsValue f.base digits < 2 ^ 32 := by
  obtain ⟨hbase, -, hpow⟩ := bounds_of_mem_all h
  calc digitsValue f.base digits
    _ < f.base ^ digits.length := digitsValue_lt hbase _
    _ ≤ f.base ^ f.digits := Nat.pow_le_pow_right (by omega) hdigits
    _ ≤ 2 ^ 32 := hpow

/-- No more digits than the family has are read as the number they stand for, without overflow. -/
theorem toNat_code (h : f ∈ all) (hdigits : digits.length ≤ f.digits) :
    (f.code digits).toNat = digitsValue f.base digits := by
  obtain ⟨hbase, hsize, -⟩ := bounds_of_mem_all h
  induction digits using List.reverseRecOn with
  | nil => rfl
  | append_singleton digits d ih =>
    have hroom := digitsValue_lt_two_pow h hdigits
    have hcode : f.code (digits ++ [d]) = f.push (f.code digits) d := by simp [code]
    have hdigit : (Text.digitValue? f.base d).getD 0 < f.base := getD_digitValue?_lt (by omega) d
    rw [List.length_append, List.length_singleton] at hdigits
    rw [digitsValue_append_singleton] at hroom ⊢
    rw [hcode, push, UInt32.toNat_add, UInt32.toNat_mul, ih (by omega), UInt32.toNat_ofNat',
      UInt32.toNat_ofNat', Nat.mod_eq_of_lt hsize, Nat.mod_eq_of_lt (hdigit.trans hsize),
      Nat.mod_add_mod, Nat.mod_eq_of_lt hroom]

theorem allows_val_iff (f : EscapeFamily) (c : Char) :
    f.allows c.val = true ↔ c.toNat ≤ f.limit := by
  have hvalid : c.toNat < 0xD800 ∨ 0xDFFF < c.toNat ∧ c.toNat < 0x110000 := c.valid
  have hhalf : c.val < 0xD800 ∨ 0xE000 ≤ c.val := by
    simp only [UInt32.lt_iff_toNat_lt, UInt32.le_iff_toNat_le, Char.toNat_val, UInt32.reduceToNat]
    omega
  simpa [allows] using fun _ => hhalf

theorem char?_eq_some_iff {code : UInt32} : char? code = some c ↔ code = c.val := by
  unfold char?
  split
  · next h =>
    rw [Option.some.injEq]
    exact ⟨fun hc => hc ▸ rfl, fun hc => Char.ext hc⟩
  · next h =>
    refine ⟨nofun, ?_⟩
    rintro rfl
    exact absurd c.valid h

/-- The digits of a family are decoded if they are as many as it takes and stand for a character
within its limit; what follows them plays no part. -/
theorem decode_eq_ok_iff (h : f ∈ all) : f.decode opening cs = .ok e ↔
    ∃ digits, Coded f.base f.digits digits e.char ∧ e.char.toNat ≤ f.limit ∧
      e.text = opening ++ digits ∧ digits ++ e.rest = cs := by
  constructor
  · intro hdecode
    have hread : (cs.take f.digits).takeWhile f.isDigit ++
        cs.drop ((cs.take f.digits).takeWhile f.isDigit).length = cs :=
      List.prefix_iff_eq_append.mp ((List.takeWhile_prefix _).trans (List.take_prefix _ _))
    have hbase : ∀ d ∈ (cs.take f.digits).takeWhile f.isDigit, f.isDigit d = true :=
      fun d => List.mem_takeWhile_imp
    simp only [decode] at hdecode
    generalize (cs.take f.digits).takeWhile f.isDigit = digits at hdecode hread hbase
    split_ifs at hdecode with hlength hallows
    · split at hdecode
      · next c hc =>
        obtain rfl := Except.ok.inj hdecode
        rw [char?_eq_some_iff] at hc
        rw [hc, allows_val_iff] at hallows
        refine ⟨digits, ⟨hlength, hbase, ?_⟩, hallows, rfl, hread⟩
        rw [← toNat_code h hlength.le, hc]
        rfl
      · cases hdecode
    · split at hdecode <;> cases hdecode
  · rintro ⟨digits, ⟨hlength, hbase, hvalue⟩, hlimit, htext, rfl⟩
    have htake : (digits ++ e.rest).take f.digits = digits := List.take_left' hlength
    have hall : digits.takeWhile f.isDigit = digits := List.takeWhile_eq_self_iff.mpr hbase
    have hcode : f.code digits = e.char.val := by
      apply UInt32.toNat_inj.mp
      rw [toNat_code h hlength.le, hvalue]
      rfl
    have hallows := (allows_val_iff f e.char).mpr hlimit
    have hchar := char?_eq_some_iff.mpr (rfl : e.char.val = e.char.val)
    simp only [decode, htake, hall, hlength, if_true, hcode, hallows, hchar, ← htext]
    rw [← hlength, List.drop_left]

end EscapeFamily

namespace Escape

variable {letter c : Char} {cs : List Char} {e : Escape} {f : EscapeFamily} {count : Nat}

theorem simple?_eq_some_iff : simple? letter = some c ↔ (letter, c) ∈ simpleEscapes := by
  constructor
  · intro h
    unfold simple? at h
    split_ifs at h <;> obtain rfl := Option.some.inj h <;> simp_all [simpleEscapes]
  · intro h
    have hall : ∀ p ∈ simpleEscapes, simple? p.1 = some p.2 := by decide
    exact hall _ h

theorem hexEscapes_of_family? (h : family? letter = some f) :
    f ∈ EscapeFamily.all ∧ f.base = 16 ∧ (letter, f.digits) ∈ hexEscapes := by
  unfold family? at h
  split_ifs at h <;> obtain rfl := Option.some.inj h <;> subst letter <;> decide

theorem family?_of_hexEscapes (h : (letter, count) ∈ hexEscapes) :
    ∃ f ∈ EscapeFamily.all, family? letter = some f ∧ simple? letter = none ∧ f.base = 16 ∧
      f.digits = count := by
  have hall : ∀ p ∈ hexEscapes, ∃ f ∈ EscapeFamily.all, family? p.1 = some f ∧
      simple? p.1 = none ∧ f.base = 16 ∧ f.digits = p.2 := by decide
  exact hall _ h

/-- No octal digit is the letter of another escape. -/
theorem letter_of_octal (h : EscapeFamily.octal.isDigit letter = true) :
    simple? letter = none ∧ family? letter = none := by
  have hsimple : ∀ p ∈ simpleEscapes, EscapeFamily.octal.isDigit p.1 = false := by decide
  have hhex : ∀ p ∈ hexEscapes, EscapeFamily.octal.isDigit p.1 = false := by decide
  constructor
  · refine Option.eq_none_iff_forall_ne_some.mpr fun c hc => ?_
    simp [hsimple _ (simple?_eq_some_iff.mp hc)] at h
  · refine Option.eq_none_iff_forall_ne_some.mpr fun f hf => ?_
    simp [hhex _ (hexEscapes_of_family? hf).2.2] at h

/-- The limit of a hexadecimal family refuses no character that its digits stand for. -/
theorem le_limit_of_coded {digits : List Char} (hf : f ∈ EscapeFamily.all) (hbase : f.base = 16)
    (h : Coded f.base f.digits digits c) : c.toNat ≤ f.limit := by
  have hlimits : ∀ f ∈ EscapeFamily.all, f.base = 16 →
      f.base ^ f.digits ≤ f.limit + 1 ∨ f.limit = 0x10FFFF := by decide
  rcases hlimits f hf hbase with hroom | hlimit
  · have hvalue : digitsValue f.base digits < f.base ^ digits.length :=
      digitsValue_lt (by omega) digits
    rw [h.value, h.length] at hvalue
    omega
  · have hvalid : c.toNat < 0xD800 ∨ 0xDFFF < c.toNat ∧ c.toNat < 0x110000 := c.valid
    omega

/-- An escape is decoded exactly where one of its forms stands. -/
theorem decode_eq_ok_iff :
    decode cs = .ok e ↔ Escapes e.text e.char ∧ e.text ++ e.rest = '\\' :: cs := by
  have hoctal : EscapeFamily.octal ∈ EscapeFamily.all := by decide
  constructor
  · intro h
    cases cs with
    | nil => cases h
    | cons d cs =>
    simp only [decode] at h
    split at h
    · next c _ hsimple =>
      obtain rfl := Except.ok.inj h
      exact ⟨.simple (simple?_eq_some_iff.mp hsimple), rfl⟩
    · next f _ hfamily =>
      obtain ⟨hf, hbase, hlisted⟩ := hexEscapes_of_family? hfamily
      obtain ⟨digits, hcoded, _, htext, rfl⟩ := (EscapeFamily.decode_eq_ok_iff hf).mp h
      rw [hbase] at hcoded
      rw [htext]
      exact ⟨.hex hlisted hcoded, rfl⟩
    · split at h
      · obtain ⟨digits, hcoded, hlimit, htext, hread⟩ :=
          (EscapeFamily.decode_eq_ok_iff hoctal).mp h
        rw [htext]
        exact ⟨.octal hcoded hlimit, congrArg ('\\' :: ·) hread⟩
      · cases h
  · rintro ⟨hescapes, hread⟩
    obtain ⟨c, text, rest⟩ := e
    cases hescapes with
    | @simple letter c hlisted =>
      obtain rfl : letter :: rest = cs := by simpa using hread
      simp only [decode, simple?_eq_some_iff.mpr hlisted]
    | @octal digits c hcoded hsmall =>
      obtain rfl : digits ++ rest = cs := by simpa using hread
      have hlength : 0 < digits.length := by rw [hcoded.length]; decide
      obtain ⟨d, ds, rfl⟩ := List.exists_cons_of_length_pos hlength
      have hdigit : EscapeFamily.octal.isDigit d = true := hcoded.inBase d (by simp)
      obtain ⟨hsimple, hfamily⟩ := letter_of_octal hdigit
      simp only [decode, List.cons_append, hsimple, hfamily, hdigit, if_true]
      exact (EscapeFamily.decode_eq_ok_iff hoctal).mpr ⟨d :: ds, hcoded, hsmall, rfl, rfl⟩
    | @hex letter c count digits hlisted hcoded =>
      obtain rfl : letter :: (digits ++ rest) = cs := by simpa using hread
      obtain ⟨f, hf, hfamily, hsimple, hbase, rfl⟩ := family?_of_hexEscapes hlisted
      rw [← hbase] at hcoded
      simp only [decode, hsimple, hfamily]
      have hlimit : c.toNat ≤ f.limit := le_limit_of_coded hf hbase hcoded
      exact (EscapeFamily.decode_eq_ok_iff hf).mpr ⟨digits, hcoded, hlimit, rfl, rfl⟩

end Escape

theorem Escapes.exists_cons {text : List Char} {c : Char} (h : Escapes text c) :
    ∃ cs, text = '\\' :: cs := by
  cases h <;> exact ⟨_, rfl⟩

namespace Spells

variable {quote c d : Char} {text other rest tail : List Char}

/-- Between quotes that are no backslashes, no spelling begins with a quote. -/
theorem exists_cons (h : Spells quote text c) (hquote : quote ≠ '\\') :
    ∃ first cs, text = first :: cs ∧ first ≠ quote := by
  cases h with
  | plain unquoted => exact ⟨c, [], rfl, unquoted⟩
  | escape escapes =>
    obtain ⟨cs, rfl⟩ := escapes.exists_cons
    exact ⟨'\\', cs, rfl, hquote.symm⟩

/-- No spelling begins a longer one, and none stands for two characters. -/
theorem unique (h : Spells quote text c) (h' : Spells quote other d)
    (heq : text ++ rest = other ++ tail) : text = other ∧ c = d ∧ rest = tail := by
  cases h with
  | plain unquoted unescaped =>
    cases h' with
    | plain => simpa using heq
    | escape escapes =>
      obtain ⟨cs, rfl⟩ := escapes.exists_cons
      exact absurd (List.cons.inj heq).1 unescaped
  | escape escapes =>
    obtain ⟨cs, rfl⟩ := escapes.exists_cons
    have hdecode : Escape.decode (cs ++ rest) = .ok ⟨c, '\\' :: cs, rest⟩ :=
      Escape.decode_eq_ok_iff.mpr ⟨escapes, rfl⟩
    cases h' with
    | plain unquoted unescaped => exact absurd (List.cons.inj heq).1.symm unescaped
    | escape escapes' =>
      have hdecode' : Escape.decode (cs ++ rest) = .ok ⟨d, other, tail⟩ :=
        Escape.decode_eq_ok_iff.mpr ⟨escapes', heq.symm⟩
      obtain ⟨hchar, htext, hrest⟩ := by simpa using hdecode.symm.trans hdecode'
      exact ⟨htext, hchar, hrest⟩

end Spells

theorem quote_ne_backslash {quote : Char} (h : quote = '\x22' ∨ quote = '\x27') :
    quote ≠ '\\' := by
  rcases h with rfl | rfl <;> decide

/-- Every character has a spelling. -/
theorem exists_spells (quote c : Char) (hquote : quote = '\x22' ∨ quote = '\x27') :
    ∃ text, Spells quote text c := by
  by_cases hescaped : c = quote ∨ c = '\\'
  · have hlisted : (c, c) ∈ simpleEscapes := by
      rcases hescaped with rfl | rfl
      · rcases hquote with rfl | rfl <;> decide
      · decide
    exact ⟨_, .escape (.simple hlisted)⟩
  · rw [not_or] at hescaped
    exact ⟨[c], .plain hescaped.1 hescaped.2⟩

end Formula
