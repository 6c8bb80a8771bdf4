import Formula.Proofs.Progress
import Formula.Proofs.Spelling

/-! Numbers in a source. Where a token begins with a digit or a point, the run of digits and points
that stands there decides what is given: digits alone are an integer within its range, and digits
with one point are a float. -/
namespace Formula

section Digits

variable {digits : List Char} {d : Char}

theorem digitValue?_of_isDigit (h : d.isDigit = true) :
    Text.digitValue? 10 d = some (d.toNat - '0'.toNat) := by
  obtain ⟨hlow, hhigh⟩ := Char.isDigit_iff_toNat.mp h
  have hdigits : ∀ n ≤ '9'.toNat, '0'.toNat ≤ n →
      Text.digitValue? 10 (Char.ofNat n) = some (n - '0'.toNat) := by decide
  have hvalue := hdigits d.toNat hhigh hlow
  rwa [Char.ofNat_toNat] at hvalue

theorem ofDigits_eq_digitsValue (h : ∀ d ∈ digits, d.isDigit = true) :
    ofDigits digits = digitsValue 10 digits := by
  induction digits using List.reverseRecOn with
  | nil => rfl
  | append_singleton digits d ih =>
    obtain ⟨hdigits, hd⟩ := List.forall_mem_append.mp h
    have hlast := digitValue?_of_isDigit (hd d (List.mem_singleton_self d))
    rw [digitsValue_append_singleton, ← ih hdigits, hlast]
    simp [ofDigits, Nat.ofDigitChars_append, Nat.ofDigitChars_cons, Nat.mul_comm]

theorem natural?_eq_some (hne : digits ≠ []) (h : ∀ d ∈ digits, d.isDigit = true) :
    natural? digits = some (digitsValue 10 digits) := by
  rw [natural?, if_pos ⟨hne, List.all_eq_true.mpr h⟩, ofDigits_eq_digitsValue h]

end Digits

namespace Lexeme

variable {c : Char} {cs r whole fraction : List Char}

theorem isDigit_of_inNumber {d : Char} (h : inNumber d = true) (hpoint : d ≠ '.') :
    d.isDigit = true := by
  simpa [inNumber, hpoint] using h

/-- Digits without a point are read as their value, if that is in range. -/
theorem numeral?_of_pointless (run : ∀ d ∈ r, inNumber d = true) (hne : r ≠ []) (h : '.' ∉ r) :
    numeral? r = if digitsValue 10 r < 2 ^ 63 then
      some (.integer, .integer (Int64.ofNat (digitsValue 10 r))) else none := by
  have hdigits : ∀ d ∈ r, d.isDigit = true := fun d hd =>
    isDigit_of_inNumber (run d hd) fun hpoint => h (hpoint ▸ hd)
  have hpow : Nat.pow 2 63 = 2 ^ 63 := rfl
  rw [numeral?, if_neg h, natural?_eq_some hne hdigits, hpow]
  simp only [Option.filter_some, decide_eq_true_eq]
  split_ifs <;> rfl

/-- Behind the first point there may be no other, and beside it there has to be a digit. -/
theorem numeral?_of_point (run : ∀ d ∈ whole ++ '.' :: fraction, inNumber d = true)
    (h : '.' ∉ whole) : numeral? (whole ++ '.' :: fraction) =
      if '.' ∉ fraction ∧ whole ++ fraction ≠ [] then
        some (.float, .float
          (Decimal.toFloat false ⟨digitsValue 10 (whole ++ fraction), -fraction.length⟩))
      else none := by
  have hfront : ∀ d ∈ whole, decide (d ≠ '.') = true := by
    intro d hd
    simpa using fun hpoint : d = '.' => h (hpoint ▸ hd)
  obtain ⟨htake, hdrop⟩ :=
    takeWhile_append_cons (p := (· ≠ '.')) hfront (c := '.') (by simp) fraction
  have hplain : Decimal.plain? (whole ++ '.' :: fraction) = Decimal.ofParts? whole fraction := by
    simp only [Decimal.plain?, htake, hdrop]
  rw [numeral?, if_pos (by simp), hplain, Decimal.ofParts?]
  split_ifs with hparts
  · obtain ⟨hsingle, hne⟩ := hparts
    have hdigits : ∀ d ∈ whole ++ fraction, d.isDigit = true := by
      intro d hd
      rcases List.mem_append.mp hd with hd | hd
      · exact isDigit_of_inNumber (run d (by simp [hd])) fun hpoint => h (hpoint ▸ hd)
      · exact isDigit_of_inNumber (run d (by simp [hd])) fun hpoint => hsingle (hpoint ▸ hd)
    rw [natural?_eq_some hne hdigits]
    rfl
  · have hnone : natural? (whole ++ fraction) = none := by
      rw [natural?, if_neg]
      rintro ⟨hne, hall⟩
      refine hparts ⟨fun hpoint => ?_, hne⟩
      exact absurd (List.all_eq_true.mp hall '.' (by simp [hpoint])) (by decide)
    rw [hnone]
    rfl

/-- One point with a digit beside it, wherever the first point stands. -/
theorem single_point_iff (run : ∀ d ∈ whole ++ '.' :: fraction, inNumber d = true)
    (h : '.' ∉ whole) : '.' ∉ fraction ∧ whole ++ fraction ≠ [] ↔
      (whole ++ '.' :: fraction).count '.' = 1 ∧
        ∃ d ∈ whole ++ '.' :: fraction, d.isDigit = true := by
  have hcount : (whole ++ '.' :: fraction).count '.' = 1 ↔ '.' ∉ fraction := by
    simp [List.count_append, List.count_eq_zero.mpr h, List.count_eq_zero]
  rw [hcount]
  refine and_congr_right fun hsingle => ⟨fun hne => ?_, ?_⟩
  · obtain ⟨d, hd⟩ := List.exists_mem_of_ne_nil _ hne
    have hmem : d ∈ whole ++ '.' :: fraction := by
      rw [List.mem_append, List.mem_cons]
      exact (List.mem_append.mp hd).imp_right .inr
    have hpoint : d ≠ '.' := by
      rintro rfl
      exact (List.mem_append.mp hd).elim h hsingle
    exact ⟨d, hmem, isDigit_of_inNumber (run d hmem) hpoint⟩
  · rintro ⟨d, hd, hdigit⟩ hnil
    obtain ⟨rfl, rfl⟩ := List.append_eq_nil_iff.mp hnil
    obtain rfl : d = '.' := by simpa using hd
    exact absurd hdigit (by decide)

theorem scan_of_inNumber (h : inNumber c = true) : scan c cs = number (c :: cs) := by
  have hmarks : c ∉ marks := fun hc => by simp [not_startsWord_of_mem_marks hc] at h
  rw [scan_of_not_mem_marks hmarks, not_startsWord_of_inNumber h, if_pos h]
  rfl

end Lexeme

/-- What is given for the run `r` of digits and points behind a text: an integer for digits that are
in range, a float for digits with one point, and otherwise a fault, which carries the whole run and
ends the scan. -/
structure GivesRun (source : String) (front r : List Char) (item : Except ScanError Token) :
    Prop where
  integer : '.' ∉ r → digitsValue 10 r ≤ 2 ^ 63 - 1 →
    ∃ n : Int64, n.toInt = digitsValue 10 r ∧
      item = .ok ⟨.integer, some (.integer n), front.length, ⟨byteLength front, byteLength r⟩⟩
  float : r.count '.' = 1 → (∃ d ∈ r, d.isDigit = true) →
    ∃ whole fraction, r = whole ++ '.' :: fraction ∧
      item = .ok ⟨.float, some (.float (Decimal.toFloat false
        ⟨digitsValue 10 (whole ++ fraction), -fraction.length⟩)), front.length,
          ⟨byteLength front, byteLength r⟩⟩
  fault : ¬ ('.' ∉ r ∧ digitsValue 10 r ≤ 2 ^ 63 - 1) →
    ¬ (r.count '.' = 1 ∧ ∃ d ∈ r, d.isDigit = true) →
      ∃ e : ScanError, e = ⟨.badNumber r, ⟨byteLength front, byteLength r⟩⟩ ∧
        item = .error e ∧ scan source = .error e

def runItem (p : Place) (r : List Char) : Except ScanError Token :=
  match Lexeme.numeral? r with
  | some (kind, value) => .ok ⟨kind, some value, p.position, p.span r⟩
  | none => .error ⟨.badNumber r, p.span r⟩

section Scanner

open Lexeme

variable {l : Lexer} {source : String} {c : Char} {cs front r : List Char}

theorem runItem_behind (front r : List Char) : runItem (Place.start.advance front) r =
    match numeral? r with
    | some (kind, value) =>
      .ok ⟨kind, some value, front.length, ⟨byteLength front, byteLength r⟩⟩
    | none => .error ⟨.badNumber r, ⟨byteLength front, byteLength r⟩⟩ := by
  simp [runItem, Place.start, Place.advance, Place.span]

/-- The runs that are given as numbers are told by their points and their value. -/
theorem givesRun_runItem (run : ∀ d ∈ r, inNumber d = true) (hne : r ≠ [])
    (fails : ∀ e, runItem (Place.start.advance front) r = .error e → scan source = .error e) :
    GivesRun source front r (runItem (Place.start.advance front) r) := by
  rw [runItem_behind] at fails ⊢
  by_cases hpoint : '.' ∈ r
  · obtain ⟨whole, fraction, rfl, hwhole⟩ := List.eq_append_cons_of_mem hpoint
    have hsingle := single_point_iff run hwhole
    rw [numeral?_of_point run hwhole] at fails ⊢
    refine ⟨fun h => absurd hpoint h, fun hcount hdigit => ⟨whole, fraction, rfl, ?_⟩,
      fun _ hnot => ⟨_, rfl, ?_⟩⟩
    · rw [if_pos (hsingle.mpr ⟨hcount, hdigit⟩)]
    · rw [if_neg (mt hsingle.mp hnot)] at fails ⊢
      exact ⟨rfl, fails _ rfl⟩
  · rw [numeral?_of_pointless run hne hpoint] at fails ⊢
    refine ⟨fun _ hrange => ?_, fun hcount => ?_, fun hnot _ => ⟨_, rfl, ?_⟩⟩
    · have hlt : digitsValue 10 r < 2 ^ 63 := by omega
      rw [if_pos hlt]
      exact ⟨_, Int64.toInt_ofNat_of_lt hlt, rfl⟩
    · rw [List.count_eq_zero.mpr hpoint] at hcount
      cases hcount
    · have hlarge : ¬ digitsValue 10 r < 2 ^ 63 := fun hlt => hnot ⟨hpoint, by omega⟩
      rw [if_neg hlarge] at fails ⊢
      exact ⟨rfl, fails _ rfl⟩

/-- Where a number begins, its run is scanned up to its end. -/
theorem call_of_inNumber (unfinished : l.done = false)
    (starts : l.rest.dropWhile Text.isBlank = c :: cs) (number : inNumber c = true) :
    l.call.1 = some (runItem l.tokenPlace ((c :: cs).takeWhile inNumber)) := by
  simp only [Lexer.call, Lexer.next?, unfinished, starts, scan_of_inNumber number, Lexeme.number,
    runItem]
  cases numeral? ((c :: cs).takeWhile inNumber) <;> rfl

/-- Where a token begins with a digit or a point, the scanner gives what the run of digits and
points there stands for, or a fault that marks that run. -/
theorem number_of_run (source : String) (calls : Nat) (c : Char) (cs : List Char)
    (unfinished : ((Lexer.ofString source).after calls).done = false)
    (starts : ((Lexer.ofString source).after calls).rest.dropWhile Text.isBlank = c :: cs)
    (number : inNumber c = true) :
    ∃ front item, source.toList = front ++ c :: cs ∧
      ((Lexer.ofString source).after calls).call.1 = some item ∧
        GivesRun source front ((c :: cs).takeWhile inNumber) item := by
  obtain ⟨front, hsource, hplace⟩ :=
    ((Lexer.standsIn_ofString source).after calls).exists_front
  rw [starts] at hsource
  have hcall := call_of_inNumber unfinished starts number
  rw [hplace] at hcall
  have run : ∀ d ∈ (c :: cs).takeWhile inNumber, inNumber d = true :=
    fun d => List.mem_takeWhile_imp
  have hne : (c :: cs).takeWhile inNumber ≠ [] := by simp [number]
  refine ⟨front, _, hsource, hcall, givesRun_runItem run hne fun e he => ?_⟩
  rw [he] at hcall
  exact Lexer.scan_eq_error_of_call hcall

/-- Zeros in front do not bring an integer into its range. -/
theorem leadingZeros_outOfRange :
    ((Lexer.ofString "é< 009223372036854775808)").after 2).done = false ∧
      ((Lexer.ofString "é< 009223372036854775808)").after 2).rest.dropWhile Text.isBlank =
        "009223372036854775808)".toList ∧
      inNumber '0' = true ∧
      scan "é< 009223372036854775808)" =
        .error ⟨.badNumber "009223372036854775808".toList, ⟨4, 21⟩⟩ := by
  have unfinished : ((Lexer.ofString "é< 009223372036854775808)").after 2).done = false := by
    decide +kernel
  have starts : ((Lexer.ofString "é< 009223372036854775808)").after 2).rest.dropWhile
      Text.isBlank = "009223372036854775808)".toList := by decide +kernel
  have number : inNumber '0' = true := by decide
  have text : "é< 009223372036854775808)".toList =
      "é< ".toList ++ "009223372036854775808)".toList := by decide +kernel
  obtain ⟨front, item, hsource, -, hgives⟩ := number_of_run _ 2 _ _ unfinished starts number
  obtain rfl : front = "é< ".toList := List.append_cancel_right (hsource.symm.trans text)
  obtain ⟨e, rfl, -, hscan⟩ := hgives.fault (by decide +kernel) (by decide +kernel)
  exact ⟨unfinished, starts, number, hscan⟩

end Scanner
end Formula
