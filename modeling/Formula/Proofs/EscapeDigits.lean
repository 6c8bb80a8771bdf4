import Mathlib.Logic.Function.Iterate
import Formula.Proofs.Spelling

/-! Escapes that give a character by the digits of its code. A loop reads the digits into a word of
thirty-two bits, which has room for all of them, and where it stops decides what the escape comes
to: too few digits, a character that is no digit, a code that no character has, or a character. -/
namespace Formula

def InBase (base : Nat) (digits : List Char) : Prop :=
  ∀ d ∈ digits, (Text.digitValue? base d).isSome = true

/-- Behind a backslash digits are announced: by a letter that stands for their family, or by the
first of them if they are octal. The text behind that letter begins with the digits. -/
inductive Announces : List Char → EscapeFamily → List Char → List Char → Prop where
  | octal {d : Char} {cs : List Char} (digit : (Text.digitValue? 8 d).isSome = true) :
      Announces (d :: cs) ⟨3, 8, 255⟩ [] (d :: cs)
  | byte {cs : List Char} : Announces ('x' :: cs) ⟨2, 16, 255⟩ ['x'] cs
  | short {cs : List Char} : Announces ('u' :: cs) ⟨4, 16, 0x10FFFF⟩ ['u'] cs
  | long {cs : List Char} : Announces ('U' :: cs) ⟨8, 16, 0x10FFFF⟩ ['U'] cs

def IsSurrogate (code : Nat) : Prop := 0xD800 ≤ code ∧ code < 0xE000

/-- The ways in which digits of a family are refused: the problem, the text of the escape as far as
it is to blame, and what is behind that. -/
inductive EscapeFamily.Refuses (f : EscapeFamily) :
    List Char → EscapeProblem → List Char → List Char → Prop where
  | ended {digits : List Char} (missing : digits.length < f.digits)
      (inBase : InBase f.base digits) : Refuses f digits .unterminated digits []
  | stray {digits rest : List Char} {c : Char} (missing : digits.length < f.digits)
      (inBase : InBase f.base digits) (stray : Text.digitValue? f.base c = none) :
      Refuses f (digits ++ c :: rest) (.illegalDigit c) (digits ++ [c]) rest
  | outside {digits rest : List Char} {code : UInt32} (full : digits.length = f.digits)
      (inBase : InBase f.base digits) (value : digitsValue f.base digits = code.toNat)
      (outside : f.limit < code.toNat ∨ IsSurrogate code.toNat) :
      Refuses f (digits ++ rest) (.invalidCode code) digits rest

inductive Escape.Refuses : List Char → EscapeProblem → List Char → List Char → Prop where
  | bare : Refuses [] .unterminated ['\\'] []
  | unknown {c : Char} {cs : List Char} (unlisted : ∀ d, (c, d) ∉ simpleEscapes)
      (unannounced : ∀ f opening ds, ¬ Announces (c :: cs) f opening ds) :
      Refuses (c :: cs) .unknown ['\\', c] cs
  | digits {cs opening ds own behind : List Char} {f : EscapeFamily} {problem : EscapeProblem}
      (announced : Announces cs f opening ds) (refused : f.Refuses ds problem own behind) :
      Refuses cs problem ('\\' :: opening ++ own) behind

/-- What is marked behind the text of a refused escape: if no character has its code, the character
that comes next. -/
def EscapeProblem.overrun : EscapeProblem → List Char → List Char
  | .invalidCode _, behind => behind.take 1
  | _, _ => []

/-- What has been read of a refused escape: its text as far as it is to blame, but not a character
that cannot go on with it. -/
def EscapeProblem.taken : EscapeProblem → List Char → List Char
  | .unknown, own | .illegalDigit _, own => own.dropLast
  | .unterminated, own | .invalidCode _, own => own

def Escape.problem? (cs : List Char) : Option EscapeProblem :=
  match decode cs with
  | .ok _ => none
  | .error f => some f.problem

structure DigitLoop where
  code : UInt32
  read : List Char
  rest : List Char

namespace DigitLoop

/-- A turn of the loop. It stays where it is if it has all digits or there is none to read. -/
def turn (f : EscapeFamily) (l : DigitLoop) : DigitLoop :=
  match l.rest with
  | [] => l
  | d :: rest =>
    if l.read.length < f.digits ∧ f.isDigit d = true then ⟨f.push l.code d, l.read ++ [d], rest⟩
    else l

def after (f : EscapeFamily) (cs : List Char) (turns : Nat) : DigitLoop :=
  (turn f)^[turns] ⟨0, [], cs⟩

def finish (f : EscapeFamily) (opening : List Char) (l : DigitLoop) :
    Except (Fault EscapeProblem) Escape :=
  let fail (problem : EscapeProblem) : Except (Fault EscapeProblem) Escape :=
    .error ⟨problem, [], opening ++ l.read ++ l.rest.take 1, opening ++ l.read⟩
  if l.read.length = f.digits then
    if f.allows l.code then
      match EscapeFamily.char? l.code with
      | some c => .ok ⟨c, opening ++ l.read, l.rest⟩
      | none => fail (.invalidCode l.code)
    else fail (.invalidCode l.code)
  else match l.rest with
    | [] => fail .unterminated
    | c :: _ => fail (.illegalDigit c)

/-- What holds of the loop over a text at any time: the code is exactly what the digits stand for,
the next digit has room in it, and no code that the loop may leave is refused as no character's. -/
structure Holds (f : EscapeFamily) (cs : List Char) (l : DigitLoop) : Prop where
  text : l.read ++ l.rest = cs
  few : l.read.length ≤ f.digits
  inBase : InBase f.base l.read
  exact : l.code.toNat = digitsValue f.base l.read
  room : l.read.length < f.digits → ∀ d value, Text.digitValue? f.base d = some value →
    l.code.toNat * f.base + value < 2 ^ 32
  valid : f.allows l.code = true → (EscapeFamily.char? l.code).isSome = true

end DigitLoop

/-- The digits in front of a text and what is behind them: as many digits as the family takes, or
fewer and no further one behind them. -/
structure Stops (f : EscapeFamily) (cs digits rest : List Char) : Prop where
  text : digits ++ rest = cs
  inBase : InBase f.base digits
  few : digits.length ≤ f.digits
  ends : digits.length < f.digits → ∀ c ∈ rest.head?, Text.digitValue? f.base c = none

section Loop

variable {f : EscapeFamily} {opening cs digits rest : List Char} {l : DigitLoop}

theorem Stops.takeWhile_eq (h : Stops f cs digits rest) :
    (cs.take f.digits).takeWhile f.isDigit = digits := by
  obtain ⟨rfl, hbase, hfew, hends⟩ := h
  have hdigits : ∀ d ∈ digits, f.isDigit d = true := hbase
  rw [List.take_append, List.take_of_length_le hfew, List.takeWhile_append_of_pos hdigits]
  rcases hfew.lt_or_eq with hmissing | hfull
  · cases rest with
    | nil => simp
    | cons c rest =>
      have hstop : f.isDigit c = false := by
        simp [EscapeFamily.isDigit, hends hmissing c rfl]
      obtain ⟨k, hk⟩ := Nat.exists_eq_add_one.mpr (Nat.sub_pos_of_lt hmissing)
      simp [hk, hstop]
  · simp [hfull]

/-- Where the digits stop decides what they are decoded to. -/
theorem Stops.decode_eq (h : Stops f cs digits rest) :
    f.decode opening cs = DigitLoop.finish f opening ⟨f.code digits, digits, rest⟩ := by
  have hrest : cs.drop digits.length = rest := by rw [← h.text, List.drop_left]
  let digits' := (cs.take f.digits).takeWhile f.isDigit
  calc f.decode opening cs
      = DigitLoop.finish f opening ⟨f.code digits', digits', cs.drop digits'.length⟩ := rfl
    _ = DigitLoop.finish f opening ⟨f.code digits, digits, rest⟩ := by
      rw [show digits' = digits from h.takeWhile_eq, hrest]

namespace DigitLoop

structure Reads (f : EscapeFamily) (cs : List Char) (l : DigitLoop) : Prop where
  text : l.read ++ l.rest = cs
  few : l.read.length ≤ f.digits
  inBase : InBase f.base l.read
  code : l.code = f.code l.read

theorem Reads.turn (h : Reads f cs l) : Reads f cs (l.turn f) := by
  obtain ⟨code, read, rest⟩ := l
  cases rest with
  | nil => exact h
  | cons d rest =>
    simp only [DigitLoop.turn]
    split_ifs with hturn
    · obtain ⟨hmissing, hdigit⟩ := hturn
      refine ⟨by simpa using h.text, by simpa using Nat.succ_le_of_lt hmissing, ?_, ?_⟩
      · exact List.forall_mem_append.mpr ⟨h.inBase, List.forall_mem_singleton.mpr hdigit⟩
      · have hcode : code = f.code read := h.code
        simp [hcode, EscapeFamily.code]
    · exact h

theorem after_succ (f : EscapeFamily) (cs : List Char) (turns : Nat) :
    after f cs (turns + 1) = (after f cs turns).turn f :=
  Function.iterate_succ_apply' _ turns _

/-- At any time the loop has read digits and nothing else. -/
theorem reads_after (f : EscapeFamily) (cs : List Char) (turns : Nat) :
    Reads f cs (after f cs turns) := by
  induction turns with
  | zero => exact ⟨rfl, Nat.zero_le _, nofun, rfl⟩
  | succ turns ih =>
    rw [after_succ]
    exact ih.turn

theorem turn_eq_or (f : EscapeFamily) (l : DigitLoop) :
    l.turn f = l ∨ (l.turn f).read.length = l.read.length + 1 := by
  unfold turn
  split
  · exact .inl rfl
  · split_ifs
    · exact .inr (by simp)
    · exact .inl rfl

/-- As long as the loop has not stopped, every turn reads one digit. -/
theorem stopped_or_length_eq (f : EscapeFamily) (cs : List Char) (turns : Nat) :
    (after f cs turns).turn f = after f cs turns ∨ (after f cs turns).read.length = turns := by
  induction turns with
  | zero => exact .inr rfl
  | succ turns ih =>
    rw [after_succ]
    rcases ih with hstopped | hlength
    · rw [hstopped]
      exact .inl hstopped
    · rcases turn_eq_or f (after f cs turns) with hstopped | hread
      · rw [hstopped]
        exact .inl hstopped
      · exact .inr (hread.trans (congrArg (· + 1) hlength))

/-- After as many turns as the family has digits the loop has stopped. -/
theorem stops_after (f : EscapeFamily) (cs : List Char) :
    Stops f cs (after f cs f.digits).read (after f cs f.digits).rest := by
  have hreads := reads_after f cs f.digits
  refine ⟨hreads.text, hreads.inBase, hreads.few, fun hmissing c hc => ?_⟩
  rcases stopped_or_length_eq f cs f.digits with hstopped | hlength
  · obtain ⟨more, hrest⟩ : ∃ more, (after f cs f.digits).rest = c :: more :=
      List.head?_eq_some_iff.mp hc
    by_contra hdigit
    have hturn : f.isDigit c = true := Option.isSome_iff_ne_none.mpr hdigit
    have hread := congrArg (fun l => l.read.length) hstopped
    simp [turn, hrest, hmissing, hturn] at hread
  · exact absurd hlength hmissing.ne

/-- Decoding the digits of an escape is running the loop over them. -/
theorem decode_eq_finish (f : EscapeFamily) (opening cs : List Char) :
    f.decode opening cs = (after f cs f.digits).finish f opening := by
  rw [(stops_after f cs).decode_eq, ← (reads_after f cs f.digits).code]

end DigitLoop
end Loop

namespace EscapeFamily

variable {f : EscapeFamily} {opening cs : List Char} {code : UInt32} {fault : Fault EscapeProblem}

theorem allows_iff : f.allows code = true ↔ code.toNat ≤ f.limit ∧ ¬ IsSurrogate code.toNat := by
  simp only [allows, IsSurrogate, Bool.and_eq_true, decide_eq_true_eq, Bool.not_eq_true',
    Bool.and_eq_false_iff, decide_eq_false_iff_not, not_and_or, UInt32.le_iff_toNat_le,
    UInt32.lt_iff_toNat_lt, UInt32.reduceToNat]

/-- Every code that a family allows is that of a character. -/
theorem isSome_char?_of_allows (h : f ∈ all) (hallows : f.allows code = true) :
    (char? code).isSome = true := by
  have hlimits : ∀ f ∈ all, f.limit ≤ 0x10FFFF := by decide
  obtain ⟨hlimit, hhalf⟩ := allows_iff.mp hallows
  have hmax := hlimit.trans (hlimits f h)
  have hvalid : code.isValidChar := by
    simp only [IsSurrogate] at hhalf
    show code.toNat < 0xD800 ∨ 0xDFFF < code.toNat ∧ code.toNat < 0x110000
    omega
  simp [char?, hvalid]

theorem exists_refuses (h : f ∈ all) (hdecode : f.decode opening cs = .error fault) :
    ∃ own behind, f.Refuses cs fault.problem own behind ∧
      fault = ⟨fault.problem, [], opening ++ own ++ fault.problem.overrun behind,
        opening ++ fault.problem.taken own⟩ := by
  have hstops := DigitLoop.stops_after f cs
  generalize (DigitLoop.after f cs f.digits).read = digits at hstops
  generalize (DigitLoop.after f cs f.digits).rest = rest at hstops
  rw [hstops.decode_eq] at hdecode
  obtain ⟨rfl, hbase, hfew, hends⟩ := hstops
  simp only [DigitLoop.finish] at hdecode
  split_ifs at hdecode with hfull hallows
  · have hchar := isSome_char?_of_allows h hallows
    split at hdecode
    · cases hdecode
    · next hnone =>
      rw [hnone] at hchar
      cases hchar
  · obtain rfl := Except.error.inj hdecode
    have houtside : f.limit < (f.code digits).toNat ∨ IsSurrogate (f.code digits).toNat := by
      simpa [allows_iff, imp_iff_not_or] using hallows
    exact ⟨digits, rest, .outside hfull hbase (toNat_code h hfew).symm houtside, rfl⟩
  · have hmissing := lt_of_le_of_ne hfew hfull
    cases rest with
    | nil =>
      obtain rfl := Except.error.inj hdecode
      rw [List.append_nil]
      exact ⟨digits, [], .ended hmissing hbase, rfl⟩
    | cons c rest =>
      obtain rfl := Except.error.inj hdecode
      refine ⟨digits ++ [c], rest, .stray hmissing hbase (hends hmissing c rfl), ?_⟩
      simp [EscapeProblem.overrun, EscapeProblem.taken]

theorem Refuses.decode_eq {problem : EscapeProblem} {own behind : List Char} (h : f ∈ all)
    (refuses : f.Refuses cs problem own behind) : f.decode opening cs =
      .error ⟨problem, [], opening ++ own ++ problem.overrun behind,
        opening ++ problem.taken own⟩ := by
  cases refuses with
  | ended missing inBase =>
    have hstops : Stops f cs cs [] := ⟨List.append_nil _, inBase, missing.le, fun _ => nofun⟩
    rw [hstops.decode_eq]
    simp [DigitLoop.finish, missing.ne, EscapeProblem.overrun, EscapeProblem.taken]
  | @stray digits _ c missing inBase stray =>
    have hstops : Stops f (digits ++ c :: behind) digits (c :: behind) :=
      ⟨rfl, inBase, missing.le, fun _ => by simpa using stray⟩
    rw [hstops.decode_eq]
    simp [DigitLoop.finish, missing.ne, EscapeProblem.overrun, EscapeProblem.taken]
  | @outside _ _ code full inBase value outside =>
    have hstops : Stops f (own ++ behind) own behind :=
      ⟨rfl, inBase, full.le, fun missing => absurd full missing.ne⟩
    have hcode : f.code own = code := by
      apply UInt32.toNat_inj.mp
      rw [toNat_code h full.le, value]
    have hallows : ¬ f.allows code = true := by
      simpa [allows_iff, imp_iff_not_or] using outside
    rw [hstops.decode_eq]
    simp [DigitLoop.finish, full, hcode, hallows, EscapeProblem.overrun, EscapeProblem.taken]

theorem Refuses.taken_append {problem : EscapeProblem} {own behind : List Char}
    (refuses : f.Refuses cs problem own behind) (opening : List Char) :
    problem.taken (opening ++ own) = opening ++ problem.taken own := by
  cases refuses with
  | ended | outside => rfl
  | @stray digits _ c =>
    rw [EscapeProblem.taken, EscapeProblem.taken, ← List.append_assoc, List.dropLast_concat,
      List.dropLast_concat]

end EscapeFamily

theorem DigitLoop.holds_after {f : EscapeFamily} (h : f ∈ EscapeFamily.all) (cs : List Char)
    (turns : Nat) : Holds f cs (after f cs turns) := by
  obtain ⟨htext, hfew, hbase, hcode⟩ := reads_after f cs turns
  have hexact : (after f cs turns).code.toNat = digitsValue f.base (after f cs turns).read := by
    rw [hcode, EscapeFamily.toNat_code h hfew]
  refine ⟨htext, hfew, hbase, hexact, fun hmissing d value hd => ?_,
    EscapeFamily.isSome_char?_of_allows h⟩
  have hnext := digitsValue_append_singleton f.base (after f cs turns).read d
  rw [hd, Option.getD_some] at hnext
  rw [hexact, ← hnext]
  refine EscapeFamily.digitsValue_lt_two_pow h ?_
  rw [List.length_append, List.length_singleton]
  exact hmissing

namespace Announces

variable {cs opening ds : List Char} {f : EscapeFamily}

theorem mem_all (h : Announces cs f opening ds) : f ∈ EscapeFamily.all := by
  cases h <;> decide

/-- Announced digits are decoded as those of their family. -/
theorem decode_eq (h : Announces cs f opening ds) :
    Escape.decode cs = f.decode ('\\' :: opening) ds := by
  cases h with
  | @octal d cs digit =>
    obtain ⟨hsimple, hfamily⟩ := Escape.letter_of_octal digit
    have hdigit : EscapeFamily.octal.isDigit d = true := digit
    simp only [Escape.decode, hsimple, hfamily, hdigit, if_true]
    rfl
  | byte | short | long => rfl

end Announces

namespace Escape

variable {cs own behind : List Char} {c : Char} {problem : EscapeProblem}
  {fault : Fault EscapeProblem}

/-- A character behind a backslash is listed, announces digits, or is neither. -/
theorem decode_cases (c : Char) (cs : List Char) :
    (∃ d, (c, d) ∈ simpleEscapes ∧ decode (c :: cs) = .ok ⟨d, ['\\', c], cs⟩) ∨
      (∃ f opening ds, Announces (c :: cs) f opening ds) ∨
      (∀ d, (c, d) ∉ simpleEscapes) ∧ (∀ f opening ds, ¬ Announces (c :: cs) f opening ds) ∧
        decode (c :: cs) = .error ⟨.unknown, [], ['\\', c], ['\\']⟩ := by
  by_cases hlisted : ∃ d, (c, d) ∈ simpleEscapes
  · obtain ⟨d, hd⟩ := hlisted
    exact .inl ⟨d, hd, by simp only [decode, simple?_eq_some_iff.mpr hd]⟩
  by_cases hannounced : ∃ f opening ds, Announces (c :: cs) f opening ds
  · exact .inr (.inl hannounced)
  have hsimple : simple? c = none :=
    Option.eq_none_iff_forall_ne_some.mpr fun d hd => hlisted ⟨d, simple?_eq_some_iff.mp hd⟩
  have hfamily : family? c = none := by
    unfold family?
    split_ifs with hbyte hshort hlong
    · subst hbyte
      exact (hannounced ⟨_, _, _, .byte⟩).elim
    · subst hshort
      exact (hannounced ⟨_, _, _, .short⟩).elim
    · subst hlong
      exact (hannounced ⟨_, _, _, .long⟩).elim
    · rfl
  have hdigit : ¬ EscapeFamily.octal.isDigit c = true := fun hc =>
    hannounced ⟨_, _, _, .octal hc⟩
  refine .inr (.inr ⟨fun d hd => hlisted ⟨d, hd⟩, fun f opening ds h => ?_, ?_⟩)
  · exact hannounced ⟨f, opening, ds, h⟩
  · simp only [decode, hsimple, hfamily, if_neg hdigit]

theorem Refuses.decode_eq (h : Refuses cs problem own behind) :
    decode cs = .error ⟨problem, [], own ++ problem.overrun behind, problem.taken own⟩ := by
  cases h with
  | bare => rfl
  | @unknown c cs unlisted unannounced =>
    rcases decode_cases c behind with
      ⟨d, hd, _⟩ | ⟨f, opening, ds, hannounced⟩ | ⟨_, _, hdecode⟩
    · exact absurd hd (unlisted d)
    · exact absurd hannounced (unannounced f opening ds)
    · exact hdecode
  | digits announced refused =>
    rw [announced.decode_eq, refused.decode_eq announced.mem_all, refused.taken_append]

/-- An escape that is not decoded is refused in one of the ways there are. -/
theorem exists_refuses (h : decode cs = .error fault) :
    ∃ own behind, Refuses cs fault.problem own behind ∧
      fault = ⟨fault.problem, [], own ++ fault.problem.overrun behind,
        fault.problem.taken own⟩ := by
  cases cs with
  | nil =>
    obtain rfl := Except.error.inj h
    exact ⟨['\\'], [], .bare, rfl⟩
  | cons c cs =>
    rcases decode_cases c cs with
      ⟨d, _, hdecode⟩ | ⟨f, opening, ds, hannounced⟩ | ⟨hunlisted, hunannounced, hdecode⟩
    · cases hdecode.symm.trans h
    · rw [hannounced.decode_eq] at h
      obtain ⟨own, behind, hrefuses, hfault⟩ :=
        EscapeFamily.exists_refuses hannounced.mem_all h
      refine ⟨'\\' :: opening ++ own, behind, .digits hannounced hrefuses, ?_⟩
      rw [hrefuses.taken_append]
      exact hfault
    · obtain rfl := Except.error.inj (hdecode.symm.trans h)
      exact ⟨['\\', c], cs, .unknown hunlisted hunannounced, rfl⟩

theorem problem?_eq_some_iff :
    problem? cs = some problem ↔ ∃ own behind, Refuses cs problem own behind := by
  constructor
  · intro h
    unfold problem? at h
    split at h
    · cases h
    · next fault hdecode =>
      obtain rfl := Option.some.inj h
      obtain ⟨own, behind, hrefuses, _⟩ := exists_refuses hdecode
      exact ⟨own, behind, hrefuses⟩
  · rintro ⟨own, behind, hrefuses⟩
    rw [problem?, hrefuses.decode_eq]

theorem problem?_eq_illegalDigit_iff : problem? cs = some (.illegalDigit c) ↔
    ∃ f opening digits rest, Announces cs f opening (digits ++ c :: rest) ∧
      digits.length < f.digits ∧ InBase f.base digits ∧ Text.digitValue? f.base c = none := by
  rw [problem?_eq_some_iff]
  constructor
  · rintro ⟨own, behind, hrefuses⟩
    cases hrefuses with
    | @digits _ _ _ _ _ f _ announced refused =>
      cases refused with
      | stray missing inBase stray => exact ⟨f, _, _, _, announced, missing, inBase, stray⟩
  · rintro ⟨f, opening, digits, rest, announced, missing, inBase, stray⟩
    exact ⟨_, _, .digits announced (.stray missing inBase stray)⟩

theorem problem?_eq_unterminated_iff : problem? cs = some .unterminated ↔
    cs = [] ∨ ∃ f opening digits, Announces cs f opening digits ∧ digits.length < f.digits ∧
      InBase f.base digits := by
  rw [problem?_eq_some_iff]
  constructor
  · rintro ⟨own, behind, hrefuses⟩
    cases hrefuses with
    | bare => exact .inl rfl
    | @digits _ _ _ _ _ f _ announced refused =>
      cases refused with
      | ended missing inBase => exact .inr ⟨f, _, _, announced, missing, inBase⟩
  · rintro (rfl | ⟨f, opening, digits, announced, missing, inBase⟩)
    · exact ⟨_, _, .bare⟩
    · exact ⟨_, _, .digits announced (.ended missing inBase)⟩

theorem problem?_eq_invalidCode_iff {code : UInt32} : problem? cs = some (.invalidCode code) ↔
    ∃ f opening digits rest, Announces cs f opening (digits ++ rest) ∧
      digits.length = f.digits ∧ InBase f.base digits ∧ digitsValue f.base digits = code.toNat ∧
      (f.limit < code.toNat ∨ IsSurrogate code.toNat) := by
  rw [problem?_eq_some_iff]
  constructor
  · rintro ⟨own, behind, hrefuses⟩
    cases hrefuses with
    | @digits _ _ _ _ _ f _ announced refused =>
      cases refused with
      | outside full inBase value outside =>
        exact ⟨f, _, _, _, announced, full, inBase, value, outside⟩
  · rintro ⟨f, opening, digits, rest, announced, full, inBase, value, outside⟩
    exact ⟨_, _, .digits announced (.outside full inBase value outside)⟩

theorem problem?_eq_unknown_iff : problem? cs = some .unknown ↔
    ∃ c rest, cs = c :: rest ∧ (∀ d, (c, d) ∉ simpleEscapes) ∧
      ∀ f opening ds, ¬ Announces cs f opening ds := by
  rw [problem?_eq_some_iff]
  constructor
  · rintro ⟨own, behind, hrefuses⟩
    cases hrefuses with
    | unknown unlisted unannounced => exact ⟨_, _, rfl, unlisted, unannounced⟩
    | digits _ refused => cases refused
  · rintro ⟨c, rest, rfl, unlisted, unannounced⟩
    exact ⟨_, _, .unknown unlisted unannounced⟩

end Escape

/-- Behind a backslash the digits that are announced are read one by one without overflow, and they
are decoded exactly if they are as many as their family takes and stand for a character within its
limit. Otherwise the first character that is no digit, the end of the text, or the exact value of
the digits says why not. -/
theorem escape_decided_by_digits (cs : List Char) :
    (∀ f opening ds, Announces cs f opening ds →
      (∀ turns, DigitLoop.Holds f ds (DigitLoop.after f ds turns)) ∧
      Escape.decode cs = (DigitLoop.after f ds f.digits).finish f ('\\' :: opening) ∧
      ∀ e, Escape.decode cs = .ok e ↔ ∃ digits, Coded f.base f.digits digits e.char ∧
        e.char.toNat ≤ f.limit ∧ e.text = '\\' :: opening ++ digits ∧ digits ++ e.rest = ds) ∧
    (∀ c, Escape.problem? cs = some (.illegalDigit c) ↔ ∃ f opening digits rest,
      Announces cs f opening (digits ++ c :: rest) ∧ digits.length < f.digits ∧
        InBase f.base digits ∧ Text.digitValue? f.base c = none) ∧
    (Escape.problem? cs = some .unterminated ↔ cs = [] ∨ ∃ f opening digits,
      Announces cs f opening digits ∧ digits.length < f.digits ∧ InBase f.base digits) ∧
    (∀ code, Escape.problem? cs = some (.invalidCode code) ↔ ∃ f opening digits rest,
      Announces cs f opening (digits ++ rest) ∧ digits.length = f.digits ∧
        InBase f.base digits ∧ digitsValue f.base digits = code.toNat ∧
        (f.limit < code.toNat ∨ IsSurrogate code.toNat)) ∧
    (Escape.problem? cs = some .unknown ↔ ∃ c rest, cs = c :: rest ∧
      (∀ d, (c, d) ∉ simpleEscapes) ∧ ∀ f opening ds, ¬ Announces cs f opening ds) := by
  refine ⟨fun f opening ds h => ⟨DigitLoop.holds_after h.mem_all ds, ?_, fun e => ?_⟩,
    fun c => Escape.problem?_eq_illegalDigit_iff, Escape.problem?_eq_unterminated_iff,
    fun code => Escape.problem?_eq_invalidCode_iff, Escape.problem?_eq_unknown_iff⟩
  · rw [h.decode_eq, DigitLoop.decode_eq_finish]
  · rw [h.decode_eq, EscapeFamily.decode_eq_ok_iff h.mem_all]

end Formula
