import Mathlib.Data.String.Basic
import Mathlib.Tactic.SplitIfs
import Formula.Proofs.NodeValues

/-! Comparing texts. Texts stand in the order of their code points, which is that of their bytes in
UTF-8, since a code point that is greater has greater bytes at the first place where they differ.
All comparisons tell that one order, and a text put in front of both sides does not change it. -/
namespace Formula

namespace Text

def codes (s : String) : List Nat := s.toList.map Char.toNat

def bytes (s : String) : List Nat := s.toUTF8.data.toList.map UInt8.toNat

/-- The bytes of a code point in UTF-8: digits of base sixty-four, of which the first one tells how
many there are. -/
def utf8 (n : Nat) : List Nat :=
  if n ≤ 0x7F then [n]
  else if n ≤ 0x7FF then [n / 64 + 192, n % 64 + 128]
  else if n ≤ 0xFFFF then [n / 4096 + 224, n / 64 % 64 + 128, n % 64 + 128]
  else [n / 262144 + 240, n / 4096 % 64 + 128, n / 64 % 64 + 128, n % 64 + 128]

/-- A code for characters that keeps their order, whatever comes behind. -/
structure OrderedCode (code : Char → List Nat) : Prop where
  ne_nil : ∀ c, code c ≠ []
  lt : ∀ {c d : Char}, c < d → ∀ u v, code c ++ u < code d ++ v

section Codes

theorem append_lt_append_iff {α : Type} [LinearOrder α] (p u v : List α) :
    p ++ u < p ++ v ↔ u < v := by
  induction p with
  | nil => rfl
  | cons a p ih => simp [ih]

/-- Texts stand in the order of their codes. -/
theorem OrderedCode.flatMap_lt_iff {code : Char → List Nat} (h : OrderedCode code)
    {cs ds : List Char} : cs.flatMap code < ds.flatMap code ↔ cs < ds := by
  induction cs generalizing ds with
  | nil =>
    cases ds with
    | nil => simp
    | cons d ds =>
      obtain ⟨n, ns, hd⟩ := List.exists_cons_of_ne_nil (h.ne_nil d)
      simp [hd]
  | cons c cs ih =>
    cases ds with
    | nil => simp
    | cons d ds =>
      rw [List.flatMap_cons, List.flatMap_cons, List.cons_lt_cons_iff]
      rcases lt_trichotomy c d with hlt | rfl | hgt
      · exact iff_of_true (h.lt hlt _ _) (.inl hlt)
      · simp [append_lt_append_iff, ih]
      · refine iff_of_false (lt_asymm (h.lt hgt _ _)) ?_
        rintro (hlt | ⟨rfl, -⟩)
        · exact lt_asymm hgt hlt
        · exact lt_irrefl _ hgt

theorem orderedCode_singleton : OrderedCode fun c => [c.toNat] where
  ne_nil _ := List.cons_ne_nil _ _
  lt h _ _ := List.cons_lt_cons_iff.mpr (.inl h)

theorem toNat_utf8EncodeChar (c : Char) :
    (String.utf8EncodeChar c).map UInt8.toNat = utf8 c.toNat := by
  have hvalid : c.toNat < 0xD800 ∨ 0xDFFF < c.toNat ∧ c.toNat < 0x110000 := c.valid
  simp only [utf8, String.utf8EncodeChar, Char.toNat_val]
  split_ifs <;>
    simp only [List.map_cons, List.map_nil, UInt8.toNat_ofNat', List.cons.injEq, and_true] <;> omega

theorem orderedCode_utf8 : OrderedCode fun c => utf8 c.toNat where
  ne_nil c := by
    unfold utf8
    split_ifs <;> exact List.cons_ne_nil _ _
  lt {c d} h u v := by
    have hvalid : d.toNat < 0xD800 ∨ 0xDFFF < d.toNat ∧ d.toNat < 0x110000 := d.valid
    have hless : c.toNat < d.toNat := h
    -- The first bytes differ if there are more of them, and otherwise some digit does.
    unfold utf8
    split_ifs <;>
      simp only [List.cons_append, List.nil_append, List.cons_lt_cons_iff] <;> omega

theorem codes_lt_iff {s t : String} : codes s < codes t ↔ s < t := by
  rw [codes, codes, List.map_eq_flatMap, List.map_eq_flatMap,
    orderedCode_singleton.flatMap_lt_iff, String.lt_iff_toList_lt]

theorem bytes_eq (s : String) : bytes s = s.toList.flatMap fun c => utf8 c.toNat := by
  have hbytes : s.toUTF8.data.toList = s.toList.flatMap String.utf8EncodeChar := by
    show s.toByteArray.data.toList = _
    rw [← String.utf8Encode_toList, List.utf8Encode, List.data_toByteArray]
  rw [bytes, hbytes, List.map_flatMap]
  simp only [toNat_utf8EncodeChar]

theorem bytes_lt_iff {s t : String} : bytes s < bytes t ↔ s < t := by
  rw [bytes_eq, bytes_eq, orderedCode_utf8.flatMap_lt_iff, String.lt_iff_toList_lt]

theorem trichotomy (s t : String) :
    (s < t ∧ s ≠ t ∧ ¬ t < s) ∨ (¬ s < t ∧ s = t ∧ ¬ t < s) ∨ (¬ s < t ∧ s ≠ t ∧ t < s) := by
  by_cases hlt : s < t
  · have hne : s ≠ t := by
      rintro rfl
      exact String.lt_irrefl s hlt
    exact .inl ⟨hlt, hne, String.lt_asymm hlt⟩
  · by_cases hgt : t < s
    · have hne : s ≠ t := by
        rintro rfl
        exact hlt hgt
      exact .inr (.inr ⟨hlt, hne, hgt⟩)
    · exact .inr (.inl ⟨hlt, String.le_antisymm (String.not_lt.mp hgt) (String.not_lt.mp hlt), hgt⟩)

theorem append_lt_iff {p s t : String} : p ++ s < p ++ t ↔ s < t := by
  simp only [String.lt_iff_toList_lt, String.toList_append, append_lt_append_iff]

end Codes
end Text

/-- What a comparison says of two things that stand in an order. -/
def Symbol.relation? {α : Type} (before : α → α → Prop) : Symbol → Option (α → α → Prop)
  | .less => some before
  | .greater => some fun a b => before b a
  | .lessEqual => some fun a b => ¬ before b a
  | .greaterEqual => some fun a b => ¬ before a b
  | .equal => some fun a b => a = b
  | .notEqual => some fun a b => a ≠ b
  | _ => none

def Expr.Decides (b : Bindings) (e : Expr) (p : Prop) : Prop :=
  ∃ v : Bool, e.ComesTo b (.bool v) ∧ (v = true ↔ p)

/-- How the trees of two texts compare: by the order of code points and as well by that of bytes,
beside a third text, and behind one that is put in front of both. -/
structure TextComparison (b : Bindings) (x y : Expr) (s t : String) : Prop where
  byCodes : ∀ symbol relation, Symbol.relation? (InvImage (· < ·) Text.codes) symbol =
    some relation → (Expr.operation symbol x y).Decides b (relation s t)
  byBytes : ∀ symbol relation, Symbol.relation? (InvImage (· < ·) Text.bytes) symbol =
    some relation → (Expr.operation symbol x y).Decides b (relation s t)
  exactlyOne : ∃! symbol, symbol ∈ [Symbol.less, .equal, .greater] ∧
    (Expr.operation symbol x y).ComesTo b (.bool true)
  complements : ∀ p ∈ [(Symbol.less, Symbol.greaterEqual), (.greater, .lessEqual),
    (.equal, .notEqual)], ∀ v : Bool, (Expr.operation p.1 x y).ComesTo b (.bool v) ↔
      (Expr.operation p.2 x y).ComesTo b (.bool !v)
  transitive : ∀ z u, z.ComesTo b (.text u) →
    (Expr.operation .less x y).ComesTo b (.bool true) →
      (Expr.operation .less y z).ComesTo b (.bool true) →
        (Expr.operation .less x z).ComesTo b (.bool true)
  prefixed : ∀ w p, w.ComesTo b (.text p) → ∀ symbol : Symbol, symbol.isComparison = true →
    ((Expr.operation symbol (.operation .plus w x) (.operation .plus w y)).eval b).outcome =
      ((Expr.operation symbol x y).eval b).outcome

section Operators

variable {symbol : Symbol} {s t p : String} {relation : String → String → Prop}

theorem Symbol.isComparison_of_relation? {α : Type} {before relation : α → α → Prop}
    (h : symbol.relation? before = some relation) : symbol.isComparison = true := by
  cases symbol with
  | less | greater | lessEqual | greaterEqual | equal | notEqual => rfl
  | _ => cases h

/-- Each comparison of texts says what it says of the order of texts. -/
theorem Symbol.onTexts_decides (h : symbol.relation? (· < ·) = some relation) (s t : String) :
    ∃ v : Bool, symbol.onTexts s t = .ok (.ofValue (.bool v)) ∧ (v = true ↔ relation s t) := by
  cases symbol with
  | less | greater | equal | notEqual =>
    obtain rfl := Option.some.inj h
    exact ⟨_, rfl, decide_eq_true_iff⟩
  | lessEqual | greaterEqual =>
    obtain rfl := Option.some.inj h
    exact ⟨_, rfl, decide_eq_true_iff.trans String.not_lt.symm⟩
  | _ => cases h

theorem Symbol.onTexts_append (h : symbol.isComparison = true) (p s t : String) :
    symbol.onTexts (p ++ s) (p ++ t) = symbol.onTexts s t := by
  have hle : ∀ s t : String, p ++ s ≤ p ++ t ↔ s ≤ t := fun s t => by
    rw [← String.not_lt, Text.append_lt_iff, String.not_lt]
  cases symbol with
  | less | greater => simp only [onTexts, Text.append_lt_iff]
  | lessEqual | greaterEqual => simp only [onTexts, hle]
  | equal | notEqual => simp [onTexts]
  | _ => cases h

namespace Expr

variable {b : Bindings} {e x y : Expr} {v : Bool} {q : Prop}

theorem Decides.comesTo_iff (h : e.Decides b q) :
    e.ComesTo b (.bool v) ↔ (v = true ↔ q) := by
  obtain ⟨v', hcomes, hv'⟩ := h
  have hunique : e.ComesTo b (.bool v) ↔ v = v' := by
    rw [ComesTo, hcomes]
    simp [eq_comm, Annotation.ofValue]
  rw [hunique, ← hv']
  cases v <;> cases v' <;> simp

theorem Decides.comesTo_true_iff (h : e.Decides b q) : e.ComesTo b (.bool true) ↔ q := by
  simp only [h.comesTo_iff, true_iff]

/-- Of a proposition and its negation, what decides one decides the other. -/
theorem Decides.comesTo_not_iff {f : Expr} (h : e.Decides b q) (h' : f.Decides b (¬ q)) :
    e.ComesTo b (.bool v) ↔ f.ComesTo b (.bool !v) := by
  rw [h.comesTo_iff, h'.comesTo_iff]
  cases v <;> simp

theorem ComesTo.outcome_texts (hx : x.ComesTo b (.text s)) (hy : y.ComesTo b (.text t))
    (h : symbol.isComparison = true) :
    ((operation symbol x y).eval b).outcome = symbol.onTexts s t := by
  cases symbol with
  | less | greater | lessEqual | greaterEqual | equal | notEqual =>
    exact hx.outcome_binary hy rfl rfl
  | _ => cases h

theorem ComesTo.decides (hx : x.ComesTo b (.text s)) (hy : y.ComesTo b (.text t)) (symbol : Symbol)
    (h : symbol.relation? (· < ·) = some relation) :
    (operation symbol x y).Decides b (relation s t) := by
  obtain ⟨v, hv, htells⟩ := Symbol.onTexts_decides h s t
  exact ⟨v, (hx.outcome_texts hy (Symbol.isComparison_of_relation? h)).trans hv, htells⟩

theorem ComesTo.less_iff (hx : x.ComesTo b (.text s)) (hy : y.ComesTo b (.text t)) :
    (operation .less x y).ComesTo b (.bool true) ↔ s < t :=
  (hx.decides hy .less rfl).comesTo_true_iff

end Expr

/-- Comparisons of texts tell the order of their code points, which is that of their bytes. It is a
strict total order, and a text in front of both sides does not change it. -/
theorem texts_compare {b : Bindings} {x y : Expr} {s t : String} (first : x.ComesTo b (.text s))
    (second : y.ComesTo b (.text t)) : TextComparison b x y s t where
  byCodes symbol relation h := by
    have hcodes : InvImage (· < ·) Text.codes = (· < · : String → String → Prop) := by
      funext s t
      exact propext Text.codes_lt_iff
    rw [hcodes] at h
    exact first.decides second symbol h
  byBytes symbol relation h := by
    have hbytes : InvImage (· < ·) Text.bytes = (· < · : String → String → Prop) := by
      funext s t
      exact propext Text.bytes_lt_iff
    rw [hbytes] at h
    exact first.decides second symbol h
  exactlyOne := by
    have hless := first.less_iff second
    have hequal := (first.decides second .equal rfl).comesTo_true_iff
    have hgreater := (first.decides second .greater rfl).comesTo_true_iff
    rcases Text.trichotomy s t with ⟨hlt, hne, hngt⟩ | ⟨hnlt, heq, hngt⟩ | ⟨hnlt, hne, hgt⟩
    · exact ⟨.less, by simp [hless, hlt], by simp [hequal, hgreater, hne, hngt]⟩
    · exact ⟨.equal, by simp [hequal, heq], by simp [hless, hgreater, hnlt, hngt]⟩
    · exact ⟨.greater, by simp [hgreater, hgt], by simp [hless, hequal, hnlt, hne]⟩
  complements p hp v := by
    simp only [List.mem_cons, List.not_mem_nil, or_false] at hp
    rcases hp with rfl | rfl | rfl
    · have hgreaterEqual := first.decides second .greaterEqual rfl
      exact (first.decides second .less rfl).comesTo_not_iff hgreaterEqual
    · have hlessEqual := first.decides second .lessEqual rfl
      exact (first.decides second .greater rfl).comesTo_not_iff hlessEqual
    · have hnotEqual := first.decides second .notEqual rfl
      exact (first.decides second .equal rfl).comesTo_not_iff hnotEqual
  transitive z u third hxy hyz := by
    rw [first.less_iff second] at hxy
    rw [second.less_iff third] at hyz
    exact (first.less_iff third).mpr (String.lt_trans hxy hyz)
  prefixed w p front symbol h := by
    have hx : (Expr.operation .plus w x).ComesTo b (.text (p ++ s)) :=
      front.outcome_binary first rfl rfl
    have hy : (Expr.operation .plus w y).ComesTo b (.text (p ++ t)) :=
      front.outcome_binary second rfl rfl
    rw [hx.outcome_texts hy h, first.outcome_texts second h, Symbol.onTexts_append h]

/-- The greater code point has the greater bytes; in units of sixteen bits it would come first. -/
theorem ligature_compared :
    (Expr.reference "a").ComesTo ⟨[("a", .text "ﬀ")]⟩ (.text "ﬀ") ∧
      (Expr.literal (.text "😀")).ComesTo ⟨[("a", .text "ﬀ")]⟩ (.text "😀") ∧
      (Expr.operation .less (.reference "a") (.literal (.text "😀"))).ComesTo
        ⟨[("a", .text "ﬀ")]⟩ (.bool true) := by
  have first : (Expr.reference "a").ComesTo ⟨[("a", .text "ﬀ")]⟩ (.text "ﬀ") :=
    Expr.comesTo_reference rfl
  have second : (Expr.literal (.text "😀")).ComesTo ⟨[("a", .text "ﬀ")]⟩ (.text "😀") :=
    Expr.comesTo_literal _
  have hless := (texts_compare first second).byBytes .less _ rfl
  have hbytes : Text.bytes "ﬀ" < Text.bytes "😀" := by decide
  exact ⟨first, second, hless.comesTo_true_iff.mpr hbytes⟩

end Operators
end Formula
