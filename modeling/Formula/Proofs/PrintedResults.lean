import Mathlib
import Formula.CommandLine.Run
import Formula.Proofs.Consistency
import Formula.Proofs.FloatNumerals
import Formula.Proofs.Lexemes

/-! Printed results. As JSON a result is read back, its value as far as a float is read as itself.
As plain text it shows its category, whatever the text of the value is, and under its category the
value, unless that is a float. -/
namespace Formula

/-- What is read of a value from its JSON text: a finite float is read as its numeral is, and
everything else as it is. -/
inductive Value.ReadAs : Value → Json → Prop where
  | bool (b : Bool) : ReadAs (.bool b) (.bool b)
  | natural {n : Int64} (natural : 0 ≤ n) : ReadAs (.integer n) (.number (.natural n.toUInt64))
  | negative {n : Int64} (negative : n < 0) : ReadAs (.integer n) (.number (.negative n))
  | text (s : String) : ReadAs (.text s) (.string s)
  | float {x y : Float} {p : Json.NumberParts} (finite : x.isFinite = true)
      (numeral : Json.NumberText p (Json.floatLayout.text x).toList) (read : p.float? = some y) :
      ReadAs (.float x) (.number (.float y))
  | infinite {x : Float} (infinite : x.isFinite = false) : ReadAs (.float x) .null

theorem Json.NumberText.unique {p q : NumberParts} {text : List Char} (h : NumberText p text)
    (h' : NumberText q text) : p = q := by
  have hends : EndsBefore inNumber [] := by simp [EndsBefore]
  have hparts := recognizes_numberParts.complete h hends
  rw [recognizes_numberParts.complete h' hends] at hparts
  exact (Prod.mk.inj (Option.some.inj hparts)).1.symm

theorem Value.ReadAs.reads {v : Value} {j : Json} {depth : Nat} (h : v.ReadAs j) :
    Json.Reads depth v.toJson.chars j := by
  cases h with
  | bool b => exact (Json.Exact.bool b).reads
  | natural natural =>
    rw [Value.toJson, if_neg (Int64.not_lt.mpr natural)]
    exact (Json.Exact.natural _).reads
  | negative negative =>
    rw [Value.toJson, if_pos negative]
    exact (Json.Exact.negative negative).reads
  | text s => exact (Json.Exact.string s).reads
  | @float x y p finite numeral read =>
    obtain ⟨q, hnumeral, hother⟩ := exists_numeral finite
    obtain rfl := numeral.unique hnumeral
    have hstored : p.number? = some (.float y) := by
      rw [Json.NumberParts.number?, if_pos (or_assoc.mp (.inl hother)), read]
      rfl
    rw [Value.toJson, if_pos finite, Json.chars, Json.Number.text, if_pos finite]
    exact Json.reads_number numeral hstored
  | infinite infinite =>
    rw [Value.toJson, if_neg (by simp [infinite])]
    exact Json.Exact.null.reads

theorem Category.name_inj {c d : Category} (h : c.name = d.name) : c = d := by
  cases c <;> cases d <;> first | rfl | exact absurd h (by decide)

/-- Values of one category but floats are the same if they are shown alike. -/
theorem Value.eq_of_display {v w : Value} (other : v.category ≠ .float)
    (same : v.category = w.category) (h : v.display = w.display) : v = w := by
  cases v with
  | float => exact absurd rfl other
  | bool b =>
    cases w with
    | bool c => cases b <;> cases c <;> first | rfl | exact absurd h (by decide)
    | integer | float | text => cases same
  | integer n =>
    cases w with
    | integer m => rw [Int64.toInt_inj.mp (Int.repr_injective h)]
    | bool | float | text => cases same
  | text s =>
    cases w with
    | text t => exact congrArg Value.text h
    | bool | integer | float => cases same

namespace CommandLine

variable {a a' : Annotation} {v v' : Value} {j : Json}

/-- A result printed as JSON is read back. -/
theorem parse?_resultLine (value : a.value = some v) (h : v.ReadAs j) :
    Json.parse? (resultLine true a) =
      some (.object [("type", .string a.category.name), ("value", j)]) := by
  have hreads : Json.Reads Json.depthLimit
      (Json.object [("type", .string a.category.name), ("value", v.toJson)]).chars
      (.object [("type", .string a.category.name), ("value", j)]) :=
    Json.reads_object (.cons ⟨rfl, Json.reads_string _⟩ (.cons ⟨rfl, h.reads⟩ .nil))
  have hline : resultLine true a = String.ofList
      ((Json.object [("type", .string a.category.name), ("value", v.toJson)]).chars ++ ['\n']) := by
    rw [resultLine, if_pos rfl, value, String.ofList_append]
    rfl
  rw [hline]
  exact hreads.parse?_eq ['\n'] (by simp [Json.isBlank])

/-- The line of a result as JSON, with the text of its value in it. -/
theorem resultLine_json (value : a.value = some v) :
    resultLine true a = "\x7b\x22type\x22:\x22" ++ a.category.name ++ "\x22,\x22value\x22:" ++
      v.toJson.text ++ "\x7d\n" := by
  have htype : Json.quoted "type" = '\x22' :: "type".toList ++ ['\x22'] := by decide
  have hvalue : Json.quoted "value" = '\x22' :: "value".toList ++ ['\x22'] := by decide
  have hname : Json.quoted a.category.name = '\x22' :: a.category.name.toList ++ ['\x22'] := by
    cases a.category <;> decide
  apply String.toList_inj.mp
  simp [resultLine, value, Json.text, Json.chars, Json.memberChars, htype, hvalue, hname]

/-- A finite float is printed as a number that is no integer. -/
theorem exists_resultLine_float {x : Float} (value : a.value = some (.float x))
    (finite : x.isFinite = true) :
    ∃ (p : Json.NumberParts) (numeral : String), Json.NumberText p numeral.toList ∧
      (p.fraction.isSome ∨ p.exponent.isSome) ∧
      resultLine true a = "\x7b\x22type\x22:\x22" ++ a.category.name ++ "\x22,\x22value\x22:" ++
        numeral ++ "\x7d\n" := by
  obtain ⟨p, hnumeral, hother⟩ := exists_numeral finite
  have htext : (Value.float x).toJson.text = Json.floatLayout.text x := by
    rw [Value.toJson, if_pos finite, Json.text, Json.chars, Json.Number.text, if_pos finite,
      String.ofList_toList]
  rw [resultLine_json value, htext]
  exact ⟨p, _, hnumeral, hother, rfl⟩

/-- Behind the last parenthesis that is opened stands the category, whatever the text of the value
is. -/
theorem resultLine_inj (value : a.value = some v) (value' : a'.value = some v')
    (h : resultLine false a = resultLine false a') :
    a.category = a'.category ∧ v.display = v'.display := by
  have hline {b : Annotation} {w : Value} (hw : b.value = some w) :
      (resultLine false b).toList.reverse = (b.category.name.toList ++ [')', '\n']).reverse ++
        '(' :: ' ' :: w.display.toList.reverse := by
    have hparts : resultLine false b = w.display ++ " (" ++ b.category.name ++ ")\n" := by
      simp [resultLine, hw]
    simp [hparts]
  have hname (c : Category) :
      ∀ d ∈ (c.name.toList ++ [')', '\n']).reverse, decide (d ≠ '(') = true := by
    cases c <;> exact List.all_eq_true.mp (by decide)
  have hopen : decide ('(' ≠ '(') = false := by decide
  have hlines := congrArg (fun s => s.toList.reverse) h
  simp only [hline value, hline value'] at hlines
  obtain ⟨hends, hbehind⟩ := append_cons_inj (hname _) (hname _) hopen hlines
  constructor
  · exact Category.name_inj (String.toList_inj.mp (by simpa using hends))
  · simpa [String.toList_inj] using hbehind

end CommandLine
end Formula
