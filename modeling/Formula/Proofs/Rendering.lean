import Mathlib.Data.List.TakeWhile
import Formula.Proofs.Composition
import Formula.Proofs.Quotation

/-! Trees printed as sources. The lexemes of a tree, read in order and set apart by spaces, are
scanned as themselves, so a tree without floats compiles from its own print. -/
namespace Formula

/-- A character as an escape of eight hexadecimal digits. -/
def escaped (c : Char) : List Char := '\\' :: 'U' :: Json.hexDigits 8 c.toNat

def quotedEscapes (cs : List Char) : List Char := '\x22' :: (cs.flatMap escaped ++ ['\x22'])

def Content.print (a : Content) : List Char :=
  match a.value with
  | none => a.kind.display.toList
  | some v =>
    if a.kind = .string then quotedEscapes v.display.toList else v.display.toList

/-- The lexemes of a tree in order, with a space between each two. -/
def Expr.render (e : Expr) : String :=
  String.ofList ([' '].intercalate (e.inOrder.map Content.print))

section Escapes

variable {c : Char} {width n : Nat}

theorem isSome_of_mem_hexDigits (h : c ∈ Json.hexDigits width n) :
    (Text.digitValue? 16 c).isSome = true := by
  induction width generalizing n with
  | zero => cases h
  | succ width ih =>
    rcases List.mem_append.mp h with h | h
    · exact ih h
    · obtain rfl := List.mem_singleton.mp h
      simp [digitValue?_digitChar]

/-- Digits of a number that they have room for stand for that number. -/
theorem digitsValue_hexDigits (h : n < 16 ^ width) :
    digitsValue 16 (Json.hexDigits width n) = n := by
  induction width generalizing n with
  | zero =>
    obtain rfl : n = 0 := Nat.lt_one_iff.mp h
    rfl
  | succ width ih =>
    have hhigh : n / 16 < 16 ^ width := by
      rw [Nat.div_lt_iff_lt_mul (by decide)]
      exact h
    rw [Json.hexDigits, digitsValue_append_singleton, ih hhigh, digitValue?_digitChar,
      Option.getD_some, Nat.div_add_mod']

theorem escapes_escaped (c : Char) : Escapes (escaped c) c := by
  have hlisted : ('U', 8) ∈ hexEscapes := by decide
  have hsmall : c.toNat < 16 ^ 8 := c.val.toNat_lt
  exact .hex hlisted ⟨Json.length_hexDigits 8 c.toNat, fun _ => isSome_of_mem_hexDigits,
    digitsValue_hexDigits hsmall⟩

theorem string_escaped (cs : List Char) :
    Lexeme.string '\x22' (cs.flatMap escaped ++ ['\x22']) =
      .ok (Lexeme.quoted '\x22' (cs.flatMap escaped) cs []) := by
  let ss : List (Spelling '\x22') := cs.map fun c => ⟨escaped c, c, .escape (escapes_escaped c)⟩
  have htexts : Spelling.texts ss = cs.flatMap escaped := by
    simp [ss, Spelling.texts, List.flatMap_map]
  have hchars : Spelling.chars ss = cs := by
    simp [ss, Spelling.chars, Function.comp_def]
  rw [← htexts, Lexeme.string_eq_ok_iff (by decide)]
  exact ⟨ss, [], rfl, by rw [hchars]⟩

end Escapes

section Prints

variable {c : Char} {cs : List Char} {x : Lexeme} {k : Kind} {n : Nat}

theorem scans_print_of_isMark (hmark : k.IsMark) (hk : k ≠ .illegal) (text rest : List Char) :
    Scans (Lexeme.mk k none text rest).content.print [(Lexeme.mk k none text rest).content] := by
  rw [Lexeme.content_mark]
  exact Kind.scans_display hmark hk

theorem scans_print_of_text (s : String) :
    Scans (Content.mk .string (some (.text s))).print [⟨.string, some (.text s)⟩] := by
  have hscan : Lexeme.scan '\x22' (s.toList.flatMap escaped ++ ['\x22']) =
      .ok ⟨.string, some (.text s), quotedEscapes s.toList, []⟩ := by
    apply Lexeme.Reads.scan_eq
    refine .string (.inl rfl) ((string_escaped s.toList).trans ?_)
    rw [Lexeme.quoted, String.ofList_toList]
    rfl
  exact Scans.of_scan hscan .nil

theorem display_wordValue (name : String) : (Lexeme.wordValue name).display = name := by
  unfold Lexeme.wordValue Kind.ofWord
  by_cases htrue : name = "true"
  · subst htrue
    rfl
  by_cases hfalse : name = "false"
  · subst hfalse
    rfl
  simp [htrue, hfalse, Value.display]

theorem content_word (cs : List Char) : (Lexeme.word cs).content =
    ⟨.ofWord (String.ofList (cs.takeWhile Lexeme.inWord)),
      some (Lexeme.wordValue (String.ofList (cs.takeWhile Lexeme.inWord)))⟩ := by
  have hoperand : (Kind.ofWord (String.ofList (cs.takeWhile Lexeme.inWord))).isOperand = true := by
    unfold Kind.ofWord
    split <;> rfl
  simp [Lexeme.content, Lexeme.at, Token.content, Lexeme.word, hoperand]

theorem print_word (name : String) :
    (Content.mk (.ofWord name) (some (Lexeme.wordValue name))).print = name.toList := by
  have hkind : Kind.ofWord name ≠ .string := by
    unfold Kind.ofWord
    split <;> nofun
  simp only [Content.print, hkind, if_false, display_wordValue]

theorem scans_print_of_word (h : Lexeme.startsWord c = true) :
    Scans (Lexeme.word (c :: cs)).content.print [(Lexeme.word (c :: cs)).content] := by
  have hin := Lexeme.inWord_of_startsWord h
  have htake : (c :: cs).takeWhile Lexeme.inWord = c :: cs.takeWhile Lexeme.inWord := by simp [hin]
  have hall : ∀ d ∈ c :: cs.takeWhile Lexeme.inWord, Lexeme.inWord d = true := by
    rw [← htake]
    exact fun d hd => List.mem_takeWhile_imp hd
  have hrest : (Lexeme.word (c :: cs.takeWhile Lexeme.inWord)).rest = [] :=
    List.dropWhile_eq_nil_iff.mpr hall
  have hsame : (Lexeme.word (c :: cs.takeWhile Lexeme.inWord)).content =
      (Lexeme.word (c :: cs)).content := by
    rw [content_word, content_word, htake, List.takeWhile_eq_self_iff.mpr hall]
  have hprint : (Lexeme.word (c :: cs)).content.print = c :: cs.takeWhile Lexeme.inWord := by
    rw [content_word, print_word, String.toList_ofList, htake]
  have hscan : Lexeme.scan c (cs.takeWhile Lexeme.inWord) =
      .ok (Lexeme.word (c :: cs.takeWhile Lexeme.inWord)) := (Lexeme.Reads.word h).scan_eq
  rw [hprint, ← hsame]
  apply Scans.of_scan hscan
  rw [hrest]
  exact .nil

theorem scan_natural (h : n < Nat.pow 2 63) : ∃ c cs, Nat.toDigits 10 n = c :: cs ∧
    Lexeme.scan c cs = .ok ⟨.integer, some (.integer (Int64.ofNat n)), c :: cs, []⟩ := by
  obtain ⟨c, cs, htext⟩ := List.exists_cons_of_ne_nil (Nat.toDigits_ne_nil (n := n) (b := 10))
  have hdigits : ∀ d ∈ c :: cs, d.isDigit = true := by
    intro d hd
    rw [← htext] at hd
    exact Nat.isDigit_of_mem_toDigits (by decide) (by decide) hd
  have hnumber : ∀ d ∈ c :: cs, Lexeme.inNumber d = true := by
    intro d hd
    simp [Lexeme.inNumber, hdigits d hd]
  have hpoint : '.' ∉ c :: cs := fun hmem => absurd (hdigits '.' hmem) (by decide)
  have hvalue : natural? (c :: cs) = some n := by
    have hof : ofDigits (c :: cs) = n := by
      rw [← htext]
      exact Nat.ofDigitChars_toDigits (by decide) (by decide)
    rw [natural?, if_pos ⟨List.cons_ne_nil c cs, List.all_eq_true.mpr hdigits⟩, hof]
  have hnumeral : Lexeme.numeral? (c :: cs) = some (.integer, .integer (Int64.ofNat n)) := by
    simp [Lexeme.numeral?, hpoint, hvalue, h]
  refine ⟨c, cs, htext, (Lexeme.Reads.number (hnumber c (by simp)) ?_).scan_eq⟩
  simp only [Lexeme.number, List.takeWhile_eq_self_iff.mpr hnumber, hnumeral,
    List.dropWhile_eq_nil_iff.mpr hnumber]

theorem exists_natural_of_numeral? {text : List Char} {v : Value}
    (h : Lexeme.numeral? text = some (k, v)) (hfloat : k ≠ .float) :
    ∃ n, n < Nat.pow 2 63 ∧ k = .integer ∧ v = .integer (Int64.ofNat n) := by
  unfold Lexeme.numeral? at h
  split at h
  · obtain ⟨d, _, hd⟩ := Option.map_eq_some_iff.mp h
    exact absurd (Prod.mk.inj hd).1.symm hfloat
  · obtain ⟨n, hn, hvalue⟩ := Option.map_eq_some_iff.mp h
    obtain ⟨rfl, rfl⟩ := Prod.mk.inj hvalue
    exact ⟨n, by simpa using (Option.filter_eq_some_iff.mp hn).2, rfl, rfl⟩

/-- An integer that is written is printed by its digits. -/
theorem print_integer (h : n < Nat.pow 2 63) :
    (Content.mk .integer (some (.integer (Int64.ofNat n)))).print = Nat.toDigits 10 n := by
  have hvalue : (Int64.ofNat n).toInt = n := Int64.toInt_ofNat_of_lt h
  have hrepr : Value.integerText (Int64.ofNat n) = Nat.repr n := by
    rw [Value.integerText, hvalue]
    rfl
  rw [← Nat.toList_repr, ← hrepr]
  rfl

theorem scans_print_of_number (h : Lexeme.number cs = .ok x) (hfloat : x.kind ≠ .float) :
    Scans x.content.print [x.content] := by
  simp only [Lexeme.number] at h
  split at h
  · next k v hnumeral =>
    obtain rfl := Except.ok.inj h
    obtain ⟨n, hn, rfl, rfl⟩ := exists_natural_of_numeral? hnumeral hfloat
    obtain ⟨d, ds, htext, hscan⟩ := scan_natural hn
    have hprint := (print_integer hn).trans htext
    have hcontent : ∀ text rest, (Lexeme.mk .integer (some (.integer (Int64.ofNat n))) text
        rest).content = ⟨.integer, some (.integer (Int64.ofNat n))⟩ := fun _ _ => rfl
    rw [hcontent, hprint]
    exact Scans.of_scan hscan .nil
  · cases h

/-- What any lexeme but a float says is scanned from its print. -/
theorem scans_print_of_scan (h : Lexeme.scan c cs = .ok x) (hfloat : x.kind ≠ .float) :
    Scans x.content.print [x.content] := by
  cases Lexeme.reads_of_scan h with
  | single first =>
    exact scans_print_of_isMark (Lexeme.isMark_of_single? first)
      (fun hk => Lexeme.single?_ne_illegal c (hk ▸ first)) _ _
  | extended first next =>
    exact scans_print_of_isMark (Lexeme.isMark_of_extensible? first).1
      (Lexeme.ne_illegal_of_extensible? first).1 _ _
  | bare first next =>
    exact scans_print_of_isMark (Lexeme.isMark_of_extensible? first).2
      (Lexeme.ne_illegal_of_extensible? first).2 _ _
  | double first next =>
    exact scans_print_of_isMark (Lexeme.isMark_of_double? first)
      (fun hk => Lexeme.double?_ne_illegal c (hk ▸ first)) _ _
  | string first read =>
    have hquote := quote_ne_backslash first
    obtain ⟨ss, rest, -, rfl⟩ := (Lexeme.string_eq_ok_iff hquote).mp read
    exact scans_print_of_text _
  | raw first read =>
    obtain ⟨text, rest, -, -, rfl⟩ := Lexeme.rawString_eq_ok_iff.mp read
    exact scans_print_of_text _
  | word first => exact scans_print_of_word first
  | number first read => exact scans_print_of_number read hfloat

/-- Prints set apart by spaces are scanned one after the other. -/
theorem scans_intercalate {contents : List Content}
    (h : ∀ a ∈ contents, Scans a.print [a]) :
    Scans ([' '].intercalate (contents.map Content.print)) contents := by
  induction contents with
  | nil => exact .nil
  | cons a contents ih =>
    obtain ⟨ha, hrest⟩ := List.forall_mem_cons.mp h
    cases contents with
    | nil => simpa using ha
    | cons b contents =>
      have hspace : Scans (' ' :: [' '].intercalate ((b :: contents).map Content.print))
          (b :: contents) := (ih hrest).of_dropWhile_eq rfl
      simpa using ha.append hspace (seals_of_isBlank rfl _)

end Prints

/-- What an operator joins operands to is written as that operator. -/
theorem Tier.isOperation_of_joiner? {tier : Tier} {k : Kind} {s : Symbol}
    (h : tier.joiner? k = some s) : s.IsOperation ∧ s.kind = k := by
  refine ⟨Symbol.isOperation_of_isBinary (isBinary_of_joiner? h), ?_⟩
  cases tier <;> cases k <;> simp only [joiner?, Option.some.injEq, reduceCtorEq] at h <;>
    subst h <;> rfl

/-- Tokens say in order what their parse tree says. -/
theorem Parses.contents_eq_inOrder {tier : Tier} {ts : List Token} {e : Expr}
    (h : Parses tier ts e) : ts.map Token.content = e.inOrder := by
  have hmark (t : Token) (k : Kind) (hkind : t.kind = k) (hk : k.isOperand = false) :
      t.content = ⟨k, none⟩ := by
    subst hkind
    exact Token.content_of_not_isOperand hk
  induction h with
  | @identifier t name hkind hvalue =>
    simp [Token.content, hkind, hvalue, Kind.isOperand, Expr.reference, Expr.inOrder]
  | @literal t v hkind hvalue =>
    have hoperand : v.literalKind.isOperand = true := by cases v <;> rfl
    simp [Token.content, hkind, hvalue, hoperand, Expr.literal, Expr.inOrder, Annotation.ofValue]
  | group hopens _ hcloses ih =>
    simp [hmark _ _ hopens rfl, hmark _ _ hcloses rfl, ih, Expr.operation, Expr.inOrder]
  | @signed t ts e sign hkind _ ih =>
    have hsign : sign.kind.isOperand = false := by cases sign <;> rfl
    rw [List.map_cons, hmark t _ hkind hsign, ih, Expr.operation,
      Expr.inOrder_node sign.isOperation_symbol, sign.kind_symbol]
    rfl
  | @invert t ts e hkind _ ih =>
    rw [List.map_cons, hmark t _ hkind rfl, ih]
    rfl
  | @join tier next t ls rs left right symbol step _ hoperator _ ihl ihr =>
    obtain ⟨hoperation, hkind⟩ := Tier.isOperation_of_joiner? hoperator
    rw [List.map_append, List.map_cons, hmark t _ hkind.symm symbol.kind_not_isOperand, ihl, ihr,
      Expr.operation, Expr.inOrder_node hoperation]
  | descend _ _ ih => exact ih

theorem Scans.print_of_mem {cs : List Char} {contents : List Content} (h : Scans cs contents) :
    ∀ a ∈ contents, a.kind ≠ .float → Scans a.print [a] := by
  induction h with
  | blank => simp
  | lexeme next scanned behind ih =>
    rw [List.forall_mem_cons]
    exact ⟨fun hfloat => scans_print_of_scan scanned hfloat, ih⟩

theorem Scans.ne_float {source : String} {contents : List Content}
    (h : Scans source.toList contents)
    (floatless : ∀ ts, scan source = .ok ts → ∀ t ∈ ts, t.kind ≠ .float) :
    ∀ a ∈ contents, a.kind ≠ .float := by
  obtain ⟨body, p, hscan, rfl⟩ := scans_iff.mp h
  intro a ha
  obtain ⟨t, ht, rfl⟩ := List.mem_map.mp ha
  exact floatless _ hscan t (List.mem_append_left _ ht)

/-- If a source without floats compiles to a tree, so does the print of that tree. -/
theorem compile_render {source : String} {e : Expr} (compiled : compile source = .ok e)
    (floatless : ∀ ts, scan source = .ok ts → ∀ t ∈ ts, t.kind ≠ .float) :
    compile e.render = .ok e := by
  obtain ⟨ts, hscans, hphrase, hparse⟩ := compile_eq_ok_iff.mp compiled
  have hfloatless := hscans.ne_float floatless
  have hprint : Scans e.render.toList (ts.map Token.content) := by
    rw [Expr.render, String.toList_ofList, ← hparse.contents_eq_inOrder]
    exact scans_intercalate fun a ha => hscans.print_of_mem a ha (hfloatless a ha)
  exact compile_eq_ok_iff.mpr ⟨ts, hprint, hphrase, hparse⟩

/-- The tree of `"\n" == (b) && !a == --12`. -/
def invertedComparison : Expr :=
  .operation .and
    (.operation .equal (.literal (.text "\n")) (Expr.reference "b").parenthesized)
    (.operation .invert .empty (.operation .equal (.reference "a")
      (.operation .negative .empty (.operation .negative .empty (.literal (.integer 12))))))

theorem invertedComparison_rendered :
    compile "\x22\\n\x22 == (b) && !a == --12" = .ok invertedComparison ∧
      (∀ ts, scan "\x22\\n\x22 == (b) && !a == --12" = .ok ts → ∀ t ∈ ts, t.kind ≠ .float) ∧
      invertedComparison.render = "\x22\\U0000000a\x22 == ( b ) && ! a == - - 12" ∧
      compile invertedComparison.render = .ok invertedComparison := by
  have compiled : compile "\x22\\n\x22 == (b) && !a == --12" = .ok invertedComparison := by
    decide +kernel
  have floatless : ∀ ts, scan "\x22\\n\x22 == (b) && !a == --12" = .ok ts →
      ∀ t ∈ ts, t.kind ≠ .float := by
    have hall : ∀ ts ∈ (scan "\x22\\n\x22 == (b) && !a == --12").toOption,
        ∀ t ∈ ts, t.kind ≠ .float := by decide +kernel
    intro ts hts
    exact hall ts (by rw [hts]; rfl)
  exact ⟨compiled, floatless, by decide +kernel, compile_render compiled floatless⟩

end Formula
