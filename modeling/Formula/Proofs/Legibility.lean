import Formula.Proofs.Rendering
import Formula.Proofs.Unquoting

/-! Printed trees. The text of a tree without floats shows where it ends and what it is a text of:
a leaf is scanned from its text, a quotation is read back, and an operation has its operands apart
between parentheses, as many as its symbol takes. -/
namespace Formula

/-- A text that does not go on with the printed tree in front of it. -/
def ClosesTree (tail : List Char) : Prop := ∀ c ∈ tail.head?, c = ' ' ∨ c = ')'

inductive LegibleLeaf : Expr → Prop where
  | word {t : Token} {e : Expr} (leaf : t.leaf? = some e)
      (inWord : ∀ c ∈ e.display.toList, Lexeme.inWord c = true)
      (scans : Scans e.display.toList [t.content]) : LegibleLeaf e
  | text (s : String) : LegibleLeaf (.literal (.text s))

inductive Legible : Expr → Prop where
  | leaf {e : Expr} (leaf : LegibleLeaf e) : Legible e
  | prefixed {symbol : Symbol} {e : Expr} (inner : symbol.isLeaf = false)
      (unary : symbol.isBinary = false) (operand : Legible e) :
      Legible (.operation symbol .empty e)
  | join {symbol : Symbol} {l r : Expr} (binary : symbol.isBinary = true) (first : Legible l)
      (second : Legible r) : Legible (.operation symbol l r)

section Leaves

variable {t u : Token} {e e' : Expr} {text text' tail tail' : List Char}

theorem Token.isOperand_of_leaf? (h : t.leaf? = some e) : t.kind.isOperand = true := by
  cases hk : t.kind <;> first | rfl | simp [leaf?, hk] at h

/-- A leaf is told from what its token says. -/
theorem Token.leaf?_eq_of_content (h : u.content = t.content) (hleaf : t.leaf? = some e) :
    u.leaf? = some e := by
  have hkind := kind_eq_of_content h
  have hvalue := value_eq_of_content h (isOperand_of_leaf? hleaf)
  rw [← hleaf, leaf?, leaf?, hkind, hvalue]

theorem Scans.unique {cs : List Char} {as bs : List Content} (h : Scans cs as)
    (h' : Scans cs bs) : as = bs := by
  rw [← String.toList_ofList (l := cs)] at h h'
  obtain ⟨body, p, hscan, rfl⟩ := scans_iff.mp h
  obtain ⟨other, q, hother, rfl⟩ := scans_iff.mp h'
  obtain ⟨rfl, _⟩ := List.append_singleton_inj.mp (Except.ok.inj (hscan.symm.trans hother))
  rfl

theorem ClosesTree.takeWhile_append (h : ClosesTree tail)
    (inWord : ∀ c ∈ text, Lexeme.inWord c = true) :
    (text ++ tail).takeWhile Lexeme.inWord = text ∧
      (text ++ tail).dropWhile Lexeme.inWord = tail := by
  rw [List.takeWhile_append_of_pos inWord, List.dropWhile_append_of_pos inWord]
  cases tail with
  | nil => simp
  | cons c tail =>
    have hc : Lexeme.inWord c = false := by
      rcases h c rfl with rfl | rfl <;> decide
    simp [hc]

theorem display_text_append (s : String) (tail : List Char) :
    (Expr.literal (.text s)).display.toList ++ tail = Text.quoted '\x22' s.toList ++ tail := by
  have hdisplay : (Expr.literal (.text s)).display = Text.quotedString s := rfl
  rw [hdisplay, Text.quotedString, String.toList_ofList]

namespace LegibleLeaf

/-- No leaf begins with a parenthesis. -/
theorem ne_openParen (h : LegibleLeaf e) (tail text : List Char) :
    e.display.toList ++ tail ≠ '(' :: text := by
  intro heq
  cases h with
  | @word t _ leaf inWord scans =>
    cases hdisplay : e.display.toList with
    | nil =>
      rw [hdisplay] at scans
      cases scans.unique .nil
    | cons c cs =>
      rw [hdisplay] at inWord heq
      obtain rfl := (List.cons.inj heq).1
      cases inWord '(' (by simp)
  | text s =>
    rw [display_text_append] at heq
    exact absurd (List.cons.inj heq).1 (by decide)

theorem word_ne_text {s : String} (inWord : ∀ c ∈ e.display.toList, Lexeme.inWord c = true)
    (scans : Scans e.display.toList [t.content]) (tail tail' : List Char) :
    e.display.toList ++ tail ≠ (Expr.literal (.text s)).display.toList ++ tail' := by
  intro heq
  rw [display_text_append] at heq
  cases hdisplay : e.display.toList with
  | nil =>
    rw [hdisplay] at scans
    cases scans.unique .nil
  | cons c cs =>
    rw [hdisplay] at inWord heq
    obtain rfl := (List.cons.inj heq).1
    cases inWord '\x22' (by simp)

theorem append_inj (h : LegibleLeaf e) (h' : LegibleLeaf e') (closes : ClosesTree tail)
    (closes' : ClosesTree tail') (heq : e.display.toList ++ tail = e'.display.toList ++ tail') :
    e = e' ∧ tail = tail' := by
  cases h with
  | @word t _ leaf inWord scans =>
    cases h' with
    | @word u _ leaf' inWord' scans' =>
      obtain ⟨htake, hdrop⟩ := closes.takeWhile_append inWord
      obtain ⟨htake', hdrop'⟩ := closes'.takeWhile_append inWord'
      rw [heq] at htake hdrop
      have hdisplay : e.display.toList = e'.display.toList := htake.symm.trans htake'
      rw [← hdisplay] at scans'
      have hcontent := (List.cons.inj (scans'.unique scans)).1
      have hleaf := Token.leaf?_eq_of_content hcontent leaf
      exact ⟨Option.some.inj (hleaf.symm.trans leaf'), hdrop.symm.trans hdrop'⟩
    | text s => exact absurd heq (word_ne_text inWord scans tail tail')
  | text s =>
    cases h' with
    | word _ inWord' scans' => exact absurd heq.symm (word_ne_text inWord' scans' tail' tail)
    | text s' =>
      rw [display_text_append, display_text_append] at heq
      obtain ⟨hs, htail⟩ := Text.quoted_append_inj heq
      rw [String.toList_inj.mp hs]
      exact ⟨rfl, htail⟩

end LegibleLeaf
end Leaves

section Operations

def Symbol.all : List Symbol :=
  [.reference, .literal, .group, .equal, .notEqual, .greater, .less, .greaterEqual, .lessEqual, .and,
    .or, .plus, .minus, .times, .divide, .modulo, .invert, .positive, .negative]

theorem Symbol.mem_all (s : Symbol) : s ∈ all := by cases s <;> decide

/-- Among symbols that take equally many operands the head tells which one it is. -/
theorem Expr.head_inj {s s' : Symbol} (arity : s.isBinary = s'.isBinary)
    (h : head s = head s') : s = s' := by
  have hall : ∀ s ∈ Symbol.all, ∀ s' ∈ Symbol.all, s.isBinary = s'.isBinary →
      head s = head s' → s = s' := by decide +kernel
  exact hall s s.mem_all s' s'.mem_all arity h

theorem Expr.ne_space_of_mem_head (s : Symbol) : ∀ c ∈ (head s).toList, decide (c ≠ ' ') = true := by
  have hall : (head s).toList.all (fun c => decide (c ≠ ' ')) = true := by cases s <;> decide
  exact List.all_eq_true.mp hall

variable {symbol symbol' : Symbol} {l r e : Expr} {x y : List Char}

/-- The text of an operation up to its first operand. -/
def Symbol.opening (symbol : Symbol) (text : List Char) : List Char :=
  '(' :: ((Expr.head symbol).toList ++ ' ' :: text)

theorem Symbol.opening_inj (h : symbol.opening x = symbol'.opening y) :
    Expr.head symbol = Expr.head symbol' ∧ x = y := by
  have hspace : decide ((' ' : Char) ≠ ' ') = false := by decide
  obtain ⟨hhead, hrest⟩ := append_cons_inj (Expr.ne_space_of_mem_head symbol)
    (Expr.ne_space_of_mem_head symbol') hspace (List.cons.inj h).2
  exact ⟨String.toList_inj.mp hhead, hrest⟩

theorem display_prefixed_append (inner : symbol.isLeaf = false) (node : e.isNode = true)
    (tail : List Char) :
    (Expr.operation symbol .empty e).display.toList ++ tail =
      symbol.opening (e.display.toList ++ ')' :: tail) := by
  have hdisplay : (Expr.operation symbol .empty e).display =
      "(" ++ Expr.head symbol ++ "" ++ (" " ++ e.display) ++ ")" := by
    cases symbol with
    | reference | literal => cases inner
    | _ => simp [Expr.operation, Expr.display, node]
  simp [hdisplay, Symbol.opening]

theorem display_join_append (inner : symbol.isLeaf = false) (node : l.isNode = true)
    (node' : r.isNode = true) (tail : List Char) :
    (Expr.operation symbol l r).display.toList ++ tail =
      symbol.opening (l.display.toList ++ ' ' :: (r.display.toList ++ ')' :: tail)) := by
  have hdisplay : (Expr.operation symbol l r).display =
      "(" ++ Expr.head symbol ++ (" " ++ l.display) ++ (" " ++ r.display) ++ ")" := by
    cases symbol with
    | reference | literal => cases inner
    | _ => simp [Expr.operation, Expr.display, node, node']
  simp [hdisplay, Symbol.opening]

end Operations

namespace Legible

variable {e e' : Expr} {tail tail' : List Char}

theorem isNode (h : Legible e) : e.isNode = true := by
  cases h with
  | leaf leaf =>
    cases leaf with
    | @word t _ leaf =>
      cases e with
      | empty => unfold Token.leaf? at leaf; split at leaf <;> cases leaf
      | node => rfl
    | text => rfl
  | prefixed | join => rfl

/-- A printed tree determines the tree and where its text ends. -/
theorem append_inj (h : Legible e) (h' : Legible e') (closes : ClosesTree tail)
    (closes' : ClosesTree tail') (heq : e.display.toList ++ tail = e'.display.toList ++ tail') :
    e = e' ∧ tail = tail' := by
  have hspace (text : List Char) : ClosesTree (' ' :: text) := by simp [ClosesTree]
  have hparen (text : List Char) : ClosesTree (')' :: text) := by simp [ClosesTree]
  induction h generalizing e' tail tail' with
  | leaf leaf =>
    cases h' with
    | leaf leaf' => exact leaf.append_inj leaf' closes closes' heq
    | prefixed inner _ operand =>
      rw [display_prefixed_append inner operand.isNode] at heq
      exact absurd heq (leaf.ne_openParen _ _)
    | join binary first second =>
      rw [display_join_append (Symbol.not_isLeaf_of_isBinary binary) first.isNode
        second.isNode] at heq
      exact absurd heq (leaf.ne_openParen _ _)
  | @prefixed symbol e inner unary operand ih =>
    rw [display_prefixed_append inner operand.isNode] at heq
    cases h' with
    | leaf leaf' => exact absurd heq.symm (leaf'.ne_openParen _ _)
    | prefixed inner' unary' operand' =>
      rw [display_prefixed_append inner' operand'.isNode] at heq
      obtain ⟨hhead, hrest⟩ := Symbol.opening_inj heq
      obtain ⟨rfl, hbehind⟩ := ih operand' (hparen _) (hparen _) hrest
      obtain rfl := Expr.head_inj (unary.trans unary'.symm) hhead
      exact ⟨rfl, (List.cons.inj hbehind).2⟩
    | join binary first second =>
      rw [display_join_append (Symbol.not_isLeaf_of_isBinary binary) first.isNode
        second.isNode] at heq
      obtain ⟨_, hbehind⟩ := ih first (hparen _) (hspace _) (Symbol.opening_inj heq).2
      exact absurd (List.cons.inj hbehind).1 (by decide)
  | @join symbol l r binary first second ihl ihr =>
    rw [display_join_append (Symbol.not_isLeaf_of_isBinary binary) first.isNode
      second.isNode] at heq
    cases h' with
    | leaf leaf' => exact absurd heq.symm (leaf'.ne_openParen _ _)
    | prefixed inner' _ operand' =>
      rw [display_prefixed_append inner' operand'.isNode] at heq
      obtain ⟨_, hbehind⟩ := ihl operand' (hspace _) (hparen _) (Symbol.opening_inj heq).2
      exact absurd (List.cons.inj hbehind).1 (by decide)
    | join binary' first' second' =>
      rw [display_join_append (Symbol.not_isLeaf_of_isBinary binary') first'.isNode
        second'.isNode] at heq
      obtain ⟨hhead, hrest⟩ := Symbol.opening_inj heq
      obtain ⟨rfl, hmiddle⟩ := ihl first' (hspace _) (hspace _) hrest
      obtain ⟨rfl, hbehind⟩ :=
        ihr second' (hparen _) (hparen _) (List.cons.inj hmiddle).2
      obtain rfl := Expr.head_inj (binary.trans binary'.symm) hhead
      exact ⟨rfl, (List.cons.inj hbehind).2⟩

end Legible

section Sources

variable {c : Char} {cs : List Char} {x : Lexeme} {t : Token} {e : Expr}

def Content.Wordy (a : Content) : Prop :=
  a.value ≠ none → a.kind ≠ .string → a.kind ≠ .float → ∀ c ∈ a.print, Lexeme.inWord c = true

theorem wordy_of_scan (h : Lexeme.scan c cs = .ok x) : x.content.Wordy := by
  intro hvalue hstring hfloat
  cases Lexeme.reads_of_scan h with
  | single | extended | bare | double =>
    rw [Lexeme.content_mark] at hvalue
    exact absurd rfl hvalue
  | string first read =>
    obtain ⟨_, _, _, rfl⟩ := (Lexeme.string_eq_ok_iff (quote_ne_backslash first)).mp read
    exact absurd rfl hstring
  | raw first read =>
    obtain ⟨_, _, _, _, rfl⟩ := Lexeme.rawString_eq_ok_iff.mp read
    exact absurd rfl hstring
  | word first =>
    rw [content_word, print_word, String.toList_ofList]
    exact fun d hd => List.mem_takeWhile_imp hd
  | number first read =>
    simp only [Lexeme.number] at read
    split at read
    · next k v hnumeral =>
      obtain rfl := Except.ok.inj read
      obtain ⟨n, hn, rfl, rfl⟩ := exists_natural_of_numeral? hnumeral hfloat
      intro d hd
      have hprint : d ∈ Nat.toDigits 10 n := print_integer hn ▸ hd
      simp [Lexeme.inWord, Nat.isDigit_of_mem_toDigits (by decide) (by decide) hprint]
    · cases read

theorem Scans.wordy_of_mem {contents : List Content} (h : Scans cs contents) :
    ∀ a ∈ contents, a.Wordy := by
  induction h with
  | blank => simp
  | lexeme _ scanned _ ih => exact List.forall_mem_cons.mpr ⟨wordy_of_scan scanned, ih⟩

/-- A leaf but a text or a float is printed as its token. -/
theorem Token.display_of_leaf? (h : t.leaf? = some e) (string : t.kind ≠ .string)
    (floatless : t.kind ≠ .float) : t.content.value ≠ none ∧ e.display.toList = t.content.print := by
  unfold leaf? at h
  split at h
  case h_4 hkind _ => exact absurd hkind floatless
  case h_5 hkind _ => exact absurd hkind string
  case h_6 => cases h
  all_goals
    next hkind hvalue =>
    obtain rfl := Option.some.inj h
    rw [content, hkind, hvalue]
    exact ⟨Option.some_ne_none _, rfl⟩

theorem LegibleLeaf.of_leaf? (h : t.leaf? = some e) (floatless : t.kind ≠ .float)
    (wordy : t.content.Wordy) (scans : Scans t.content.print [t.content]) : LegibleLeaf e := by
  by_cases hstring : t.kind = .string
  · unfold Token.leaf? at h
    split at h
    case h_5 =>
      obtain rfl := Option.some.inj h
      exact .text _
    case h_6 => cases h
    all_goals
      next hkind _ => cases hkind.symm.trans hstring
  · obtain ⟨hvalue, hdisplay⟩ := Token.display_of_leaf? h hstring floatless
    rw [← hdisplay] at scans
    refine .word h ?_ scans
    rw [hdisplay]
    exact wordy hvalue hstring floatless

theorem Parses.legible {tier : Tier} {ts : List Token} (h : Parses tier ts e)
    (leaves : ∀ t ∈ ts, ∀ e, t.leaf? = some e → LegibleLeaf e) : Legible e := by
  induction h with
  | @identifier t name kind value =>
    exact .leaf (leaves t (by simp) _ (by simp [Token.leaf?, kind, value]))
  | @literal t v kind value =>
    refine .leaf (leaves t (by simp) _ ?_)
    cases v <;> simp [Token.leaf?, kind, value, Value.literalKind]
  | group _ _ _ ih => exact .prefixed rfl rfl (ih fun t ht => leaves t (by simp [ht]))
  | invert _ _ ih => exact .prefixed rfl rfl (ih fun t ht => leaves t (by simp [ht]))
  | signed sign _ _ ih =>
    have hoperand := ih fun t ht => leaves t (by simp [ht])
    cases sign <;> exact .prefixed rfl rfl hoperand
  | join _ _ operator _ ihl ihr =>
    exact .join (Tier.isBinary_of_joiner? operator) (ihl fun t ht => leaves t (by simp [ht]))
      (ihr fun t ht => leaves t (by simp [ht]))
  | descend _ _ ih => exact ih leaves

theorem legible_of_compile {source : String} (compiled : compile source = .ok e)
    (floatless : ∀ ts, scan source = .ok ts → ∀ t ∈ ts, t.kind ≠ .float) : Legible e := by
  obtain ⟨ts, hscans, _, hparse⟩ := compile_eq_ok_iff.mp compiled
  refine hparse.legible fun t ht e hleaf => ?_
  have hmem : t.content ∈ ts.map Token.content := List.mem_map_of_mem ht
  have hfloat := hscans.ne_float floatless _ hmem
  exact .of_leaf? hleaf hfloat (hscans.wordy_of_mem _ hmem) (hscans.print_of_mem _ hmem hfloat)

end Sources

/-- Trees of sources without floats are the same if they are printed alike. -/
theorem eq_of_display_eq {source other : String} {e e' : Expr}
    (compiled : compile source = .ok e) (compiled' : compile other = .ok e')
    (floatless : ∀ ts, scan source = .ok ts → ∀ t ∈ ts, t.kind ≠ .float)
    (floatless' : ∀ ts, scan other = .ok ts → ∀ t ∈ ts, t.kind ≠ .float)
    (alike : e.display = e'.display) : e = e' := by
  have hends : ClosesTree [] := by simp [ClosesTree]
  have heq : e.display.toList ++ [] = e'.display.toList ++ [] := by rw [alike]
  exact ((legible_of_compile compiled floatless).append_inj
    (legible_of_compile compiled' floatless') hends hends heq).1

/-- The tree of `!(-group < 7) || s == "a (\""`, with an accent in the text. -/
def invertedGroup : Expr :=
  .operation .or
    (.operation .invert .empty (Expr.operation .less (.operation .negative .empty
      (.reference "group")) (.literal (.integer 7))).parenthesized)
    (.operation .equal (.reference "s") (.literal (.text "a (\x22\u0301")))

theorem invertedGroup_legible :
    compile "!(-group<007)||s==\x27a (\x22\\u0301\x27" = .ok invertedGroup ∧
      (∀ ts, scan "!(-group<007)||s==\x27a (\x22\\u0301\x27" = .ok ts →
        ∀ t ∈ ts, t.kind ≠ .float) ∧
      invertedGroup.display =
        "(|| (! (group (< (- group) 7))) (== s \x22a (\\\x22\\u\x7b301\x7d\x22))" ∧
      ∃ e, compile "! ( - group < 7 ) || s == \x22a (\\\x22\\U00000301\x22" = .ok e ∧
        (∀ ts, scan "! ( - group < 7 ) || s == \x22a (\\\x22\\U00000301\x22" = .ok ts →
          ∀ t ∈ ts, t.kind ≠ .float) ∧
        invertedGroup.display = e.display ∧ invertedGroup = e := by
  have compiled : compile "!(-group<007)||s==\x27a (\x22\\u0301\x27" = .ok invertedGroup := by
    decide +kernel
  have compiled' : compile "! ( - group < 7 ) || s == \x22a (\\\x22\\U00000301\x22" =
      .ok invertedGroup := by decide +kernel
  have floatless : ∀ ts, scan "!(-group<007)||s==\x27a (\x22\\u0301\x27" = .ok ts →
      ∀ t ∈ ts, t.kind ≠ .float := by
    have hall : ∀ ts ∈ (scan "!(-group<007)||s==\x27a (\x22\\u0301\x27").toOption,
        ∀ t ∈ ts, t.kind ≠ .float := by decide +kernel
    intro ts hts
    exact hall ts (by rw [hts]; rfl)
  have floatless' : ∀ ts, scan "! ( - group < 7 ) || s == \x22a (\\\x22\\U00000301\x22" = .ok ts →
      ∀ t ∈ ts, t.kind ≠ .float := by
    have hall : ∀ ts ∈
        (scan "! ( - group < 7 ) || s == \x22a (\\\x22\\U00000301\x22").toOption,
        ∀ t ∈ ts, t.kind ≠ .float := by decide +kernel
    intro ts hts
    exact hall ts (by rw [hts]; rfl)
  exact ⟨compiled, floatless, by decide +kernel, invertedGroup, compiled', floatless', rfl,
    eq_of_display_eq compiled compiled' floatless floatless' rfl⟩

end Formula
