import Mathlib.Data.List.DropRight
import Mathlib.Data.List.Forall2
import Formula.Proofs.Normalization

/-! Written JSON is read back. The compact text of a value is read as that value, whatever stands
behind it, as long as no float is in it and it does not nest too deep. -/
namespace Formula.Json

/-- The values that are read back as they are: their numbers are whole, and those that are kept as
negative ones are. They nest no deeper than a depth. -/
inductive Exact : Nat → Json → Prop where
  | null {depth : Nat} : Exact depth .null
  | bool {depth : Nat} (b : Bool) : Exact depth (.bool b)
  | natural {depth : Nat} (n : UInt64) : Exact depth (.number (.natural n))
  | negative {depth : Nat} {n : Int64} (below : n < 0) : Exact depth (.number (.negative n))
  | string {depth : Nat} (s : String) : Exact depth (.string s)
  | array {depth : Nat} {elements : List Json} (exact : ∀ e ∈ elements, Exact depth e) :
      Exact (depth + 1) (.array elements)
  | object {depth : Nat} {members : List (String × Json)} (exact : ∀ m ∈ members, Exact depth m.2) :
      Exact (depth + 1) (.object members)

section Strings

variable {c : Char} {cs es chars tail : List Char}

def ReadsBody (cs chars tail : List Char) : Prop := ∃ h, stringBody? cs = some (chars, ⟨tail, h⟩)

theorem readsBody_quote (tail : List Char) : ReadsBody ('\x22' :: tail) [] tail := by
  rw [ReadsBody, stringBody?]
  exact ⟨_, rfl⟩

theorem ReadsBody.of_escaped (h : ReadsBody cs chars tail) (read : escaped? es = some (c, cs)) :
    ReadsBody ('\\' :: es) (c :: chars) tail := by
  obtain ⟨hless, hbody⟩ := h
  rw [ReadsBody, stringBody?, if_neg (by decide), if_pos rfl]
  split
  · next hnone => cases read.symm.trans hnone
  · next d rest hsome =>
    obtain ⟨rfl, rfl⟩ := Prod.mk.inj (Option.some.inj (read.symm.trans hsome))
    rw [hbody]
    exact ⟨Nat.lt_succ_of_lt (hless.trans (length_lt_of_escaped? read)), rfl⟩

theorem ReadsBody.of_plain (h : ReadsBody cs chars tail) (unquoted : c ≠ '\x22')
    (unescaped : c ≠ '\\') (printed : ¬ c.toNat < 0x20) :
    ReadsBody (c :: cs) (c :: chars) tail := by
  obtain ⟨hless, hbody⟩ := h
  rw [ReadsBody, stringBody?, if_neg unquoted, if_neg unescaped, if_neg printed, hbody]
  exact ⟨_, rfl⟩

/-- Control characters are written by four digits of their codes. -/
theorem escaped?_code (h : c.toNat < 0x20) (cs : List Char) :
    escaped? ('u' :: (hexDigits 4 c.toNat ++ cs)) = some (c, cs) := by
  have hall : ∀ n < 0x20, ∃ a b d e, hexDigits 4 n = [a, b, d, e] ∧ codeUnit? a b d e = some n ∧
      scalar? n = some (Char.ofNat n) := by
    intro n hn
    refine ⟨_, _, _, _, rfl, ?_, ?_⟩
    all_goals revert n; decide
  obtain ⟨a, b, d, e, hdigits, hunit, hscalar⟩ := hall _ h
  rw [hdigits]
  simp [escaped?, hunit, hscalar]

theorem ReadsBody.escape (h : ReadsBody cs chars tail) (c : Char) :
    ReadsBody (escape c ++ cs) (c :: chars) tail := by
  unfold Json.escape
  split_ifs with hmark hb hf hn hr ht hcode
  · refine h.of_escaped ?_
    rcases hmark with rfl | rfl <;> rfl
  · exact hb ▸ h.of_escaped rfl
  · exact hf ▸ h.of_escaped rfl
  · exact hn ▸ h.of_escaped rfl
  · exact hr ▸ h.of_escaped rfl
  · exact ht ▸ h.of_escaped rfl
  · exact h.of_escaped (escaped?_code hcode cs)
  · rw [not_or] at hmark
    exact h.of_plain hmark.1 hmark.2 hcode

theorem readsBody_flatMap (cs tail : List Char) :
    ReadsBody (cs.flatMap escape ++ '\x22' :: tail) cs tail := by
  induction cs with
  | nil => exact readsBody_quote tail
  | cons c cs ih =>
    rw [List.flatMap_cons, List.append_assoc]
    exact ih.escape c

end Strings

section Values

variable {depth : Nat} {c mark : Char} {cs rest text tail : List Char} {j : Json}

/-- A text that is read as a value, whatever stands behind it, unless that goes on with a number.
Behind an array or an object blanks are skipped. -/
structure Reads (depth : Nat) (text : List Char) (j : Json) : Prop where
  starts : ∃ c cs, text = c :: cs ∧ isBlank c = false ∧ c ≠ ']'
  value : ∀ tail, EndsBefore inNumber tail → ∃ r : Shorter (text ++ tail),
    value? depth (text ++ tail) = some (j, r) ∧ skipBlanks r.1 = skipBlanks tail

theorem skipBlanks_cons (h : isBlank c = false) (cs : List Char) :
    skipBlanks (c :: cs) = c :: cs := by
  simp [skipBlanks, h]

theorem skipBlanks_skipBlanks (cs : List Char) : skipBlanks (skipBlanks cs) = skipBlanks cs :=
  List.dropWhile_idempotent isBlank cs

theorem Reads.skipBlanks_append (h : Reads depth text j) (tail : List Char) :
    skipBlanks (text ++ tail) = text ++ tail := by
  obtain ⟨c, cs, rfl, hblank, -⟩ := h.starts
  exact skipBlanks_cons hblank _

theorem afterMark?_of_eq (h : skipBlanks cs = mark :: rest) :
    ∃ r : Shorter cs, afterMark? mark cs = some r ∧ r.1 = skipBlanks rest := by
  unfold afterMark?
  split
  · next hnil => cases h.symm.trans hnil
  · next d other hcons =>
    obtain ⟨rfl, rfl⟩ := List.cons.inj (h.symm.trans hcons)
    rw [if_pos rfl]
    exact ⟨_, rfl, rfl⟩

theorem afterMark?_of_ne (h : skipBlanks cs = c :: rest) (hne : c ≠ mark) :
    afterMark? mark cs = none := by
  unfold afterMark?
  split
  · rfl
  · next d other hcons =>
    obtain ⟨rfl, rfl⟩ := List.cons.inj (h.symm.trans hcons)
    exact if_neg hne

theorem exists_elementChars_eq (element : Json) (elements : List Json) :
    ∃ more, elementChars (element :: elements) = element.chars ++ more := by
  cases elements with
  | nil => exact ⟨[], (List.append_nil _).symm⟩
  | cons => exact ⟨_, rfl⟩

theorem skipBlanks_elementChars {element : Json} (read : Reads depth element.chars j)
    (elements : List Json) (tail : List Char) :
    skipBlanks (elementChars (element :: elements) ++ tail) =
      elementChars (element :: elements) ++ tail := by
  obtain ⟨more, hmore⟩ := exists_elementChars_eq element elements
  rw [hmore, List.append_assoc]
  exact read.skipBlanks_append _

theorem elements?_last {element : Json} (read : Reads depth element.chars j) (tail : List Char) :
    ∃ r : Shorter (element.chars ++ ']' :: tail),
      elements? depth (element.chars ++ ']' :: tail) = some ([j], r) ∧
        skipBlanks r.1 = skipBlanks tail := by
  obtain ⟨⟨rest, _⟩, hvalue, hrest⟩ := read.value (']' :: tail) (.cons (by decide) _)
  have hbracket : skipBlanks rest = ']' :: tail := hrest.trans (skipBlanks_cons rfl tail)
  obtain ⟨r, hmark, hr⟩ := afterMark?_of_eq hbracket
  rw [elements?]
  simp only [hvalue, afterMark?_of_ne hbracket (show ']' ≠ ',' by decide), hmark,
    Option.bind_eq_bind, Option.bind_some]
  exact ⟨_, rfl, by rw [hr, skipBlanks_skipBlanks]⟩

theorem elements?_more {element : Json} {others : List Json} {more : List Char} {r : Shorter more}
    (read : Reads depth element.chars j) (skipped : skipBlanks more = more)
    (h : elements? depth more = some (others, r)) :
    ∃ r' : Shorter (element.chars ++ ',' :: more),
      elements? depth (element.chars ++ ',' :: more) = some (j :: others, r') ∧ r'.1 = r.1 := by
  obtain ⟨⟨rest, _⟩, hvalue, hrest⟩ := read.value (',' :: more) (.cons (by decide) _)
  have hcomma : skipBlanks rest = ',' :: more := hrest.trans (skipBlanks_cons rfl _)
  obtain ⟨⟨next, _⟩, hmark, hr⟩ := afterMark?_of_eq hcomma
  obtain rfl : next = more := hr.trans skipped
  rw [elements?]
  simp only [hvalue, hmark, h, Option.bind_eq_bind, Option.bind_some]
  exact ⟨_, rfl, rfl⟩

/-- Elements are read up to the bracket behind them, each where it stands. -/
theorem elements?_of_reads {elements others : List Json}
    (h : List.Forall₂ (fun e j => Reads depth e.chars j) elements others) (hne : elements ≠ [])
    (tail : List Char) : ∃ r : Shorter (elementChars elements ++ ']' :: tail),
      elements? depth (elementChars elements ++ ']' :: tail) = some (others, r) ∧
        skipBlanks r.1 = skipBlanks tail := by
  induction h with
  | nil => exact absurd rfl hne
  | @cons e j elements others read more ih =>
    cases more with
    | nil => exact elements?_last read tail
    | @cons e' j' elements others read' more =>
      obtain ⟨r, helements, hbehind⟩ := ih (List.cons_ne_nil _ _)
      obtain ⟨r', hmore, hr⟩ :=
        elements?_more read (skipBlanks_elementChars read' elements _) helements
      have htext : elementChars (e :: e' :: elements) ++ ']' :: tail =
          e.chars ++ ',' :: (elementChars (e' :: elements) ++ ']' :: tail) := by
        simp [elementChars]
      rw [htext]
      exact ⟨r', hmore, by rw [hr, hbehind]⟩

theorem quoted_append (key : String) (tail : List Char) :
    quoted key ++ tail = '\x22' :: (key.toList.flatMap escape ++ '\x22' :: tail) := by
  simp [quoted]

/-- A key is read with its colon and the value behind it. -/
theorem members?_quoted (key : String) {value : Json} {behind : List Char}
    (read : Reads depth value.chars j) (ends : EndsBefore inNumber behind) :
    ∃ (cs : List Char) (afterKey : Shorter cs) (afterColon : Shorter afterKey.1)
      (rest : Shorter afterColon.1),
      quoted key ++ ':' :: (value.chars ++ behind) = '\x22' :: cs ∧
        stringBody? cs = some (key.toList, afterKey) ∧
        afterMark? ':' afterKey.1 = some afterColon ∧
        value? depth afterColon.1 = some (j, rest) ∧ skipBlanks rest.1 = skipBlanks behind := by
  obtain ⟨hkey, hbody⟩ := readsBody_flatMap key.toList (':' :: (value.chars ++ behind))
  obtain ⟨⟨afterColon, hcolon⟩, hmark, hr⟩ :=
    afterMark?_of_eq (skipBlanks_cons (c := ':') rfl (value.chars ++ behind))
  obtain rfl : afterColon = value.chars ++ behind := hr.trans (read.skipBlanks_append behind)
  obtain ⟨rest, hvalue, hrest⟩ := read.value behind ends
  exact ⟨_, ⟨_, hkey⟩, ⟨_, hcolon⟩, rest, quoted_append _ _, hbody, hmark, hvalue, hrest⟩

theorem members?_last (key : String) {value : Json} (read : Reads depth value.chars j)
    (tail : List Char) : ∃ r : Shorter (quoted key ++ ':' :: (value.chars ++ '\x7d' :: tail)),
      members? depth (quoted key ++ ':' :: (value.chars ++ '\x7d' :: tail)) =
        some ([(key, j)], r) ∧ skipBlanks r.1 = skipBlanks tail := by
  have ends : EndsBefore inNumber ('\x7d' :: tail) := .cons (by decide) _
  obtain ⟨cs, ⟨afterKey, _⟩, ⟨afterColon, _⟩, ⟨rest, _⟩, htext, hbody, hcolon, hvalue, hrest⟩ :=
    members?_quoted key read ends
  have hbrace : skipBlanks rest = '\x7d' :: tail := hrest.trans (skipBlanks_cons rfl tail)
  obtain ⟨r, hmark, hr⟩ := afterMark?_of_eq hbrace
  rw [htext, members?]
  simp only [hbody, hcolon, hvalue, afterMark?_of_ne hbrace (show '\x7d' ≠ ',' by decide), hmark,
    Option.bind_eq_bind, Option.bind_some, String.ofList_toList]
  exact ⟨_, rfl, by rw [hr, skipBlanks_skipBlanks]⟩

theorem members?_more (key : String) {value : Json} {others : List (String × Json)}
    {more : List Char} {r : Shorter more} (read : Reads depth value.chars j)
    (skipped : skipBlanks more = more) (h : members? depth more = some (others, r)) :
    ∃ r' : Shorter (quoted key ++ ':' :: (value.chars ++ ',' :: more)),
      members? depth (quoted key ++ ':' :: (value.chars ++ ',' :: more)) =
        some ((key, j) :: others, r') ∧ r'.1 = r.1 := by
  have ends : EndsBefore inNumber (',' :: more) := .cons (by decide) _
  obtain ⟨cs, ⟨afterKey, _⟩, ⟨afterColon, _⟩, ⟨rest, _⟩, htext, hbody, hcolon, hvalue, hrest⟩ :=
    members?_quoted key read ends
  have hcomma : skipBlanks rest = ',' :: more := hrest.trans (skipBlanks_cons rfl _)
  obtain ⟨⟨next, _⟩, hmark, hr⟩ := afterMark?_of_eq hcomma
  obtain rfl : next = more := hr.trans skipped
  rw [htext, members?]
  simp only [hbody, hcolon, hvalue, hmark, h, Option.bind_eq_bind, Option.bind_some,
    String.ofList_toList]
  exact ⟨_, rfl, rfl⟩

theorem exists_memberChars_eq (key : String) (value : Json) (members : List (String × Json)) :
    ∃ more, memberChars ((key, value) :: members) = '\x22' :: more := by
  cases members with
  | nil => exact ⟨_, rfl⟩
  | cons => exact ⟨_, rfl⟩

theorem skipBlanks_memberChars (m : String × Json) (members : List (String × Json))
    (tail : List Char) :
    skipBlanks (memberChars (m :: members) ++ tail) = memberChars (m :: members) ++ tail := by
  obtain ⟨more, hmore⟩ := exists_memberChars_eq m.1 m.2 members
  rw [hmore]
  exact skipBlanks_cons rfl _

/-- Members are read up to the brace behind them, each where it stands. -/
theorem members?_of_reads {members others : List (String × Json)}
    (h : List.Forall₂ (fun m m' => m.1 = m'.1 ∧ Reads depth m.2.chars m'.2) members others)
    (hne : members ≠ []) (tail : List Char) :
    ∃ r : Shorter (memberChars members ++ '\x7d' :: tail),
      members? depth (memberChars members ++ '\x7d' :: tail) = some (others, r) ∧
        skipBlanks r.1 = skipBlanks tail := by
  induction h with
  | nil => exact absurd rfl hne
  | @cons m m' members others same more ih =>
    obtain ⟨key, value⟩ := m
    obtain ⟨key', j⟩ := m'
    obtain ⟨rfl, read⟩ : key = key' ∧ Reads depth value.chars j := same
    cases more with
    | nil =>
      have htext : memberChars [(key, value)] ++ '\x7d' :: tail =
          quoted key ++ ':' :: (value.chars ++ '\x7d' :: tail) := by simp [memberChars]
      rw [htext]
      exact members?_last key read tail
    | @cons m m' members others same' more =>
      obtain ⟨r, hmembers, hbehind⟩ := ih (List.cons_ne_nil _ _)
      obtain ⟨r', hmore, hr⟩ :=
        members?_more key read (skipBlanks_memberChars m members _) hmembers
      have htext : memberChars ((key, value) :: m :: members) ++ '\x7d' :: tail =
          quoted key ++ ':' ::
            (value.chars ++ ',' :: (memberChars (m :: members) ++ '\x7d' :: tail)) := by
        simp [memberChars]
      rw [htext]
      exact ⟨r', hmore, by rw [hr, hbehind]⟩

theorem reads_null : Reads depth "null".toList .null where
  starts := ⟨'n', _, rfl, rfl, by decide⟩
  value tail _ := by
    show ∃ r, value? depth ('n' :: 'u' :: 'l' :: 'l' :: tail) = _ ∧ _
    rw [value?]
    · exact ⟨_, rfl, rfl⟩
    all_goals simp

theorem reads_bool (b : Bool) : Reads depth (Json.bool b).chars (.bool b) where
  starts := by cases b <;> exact ⟨_, _, rfl, rfl, by decide⟩
  value tail _ := by
    cases b with
    | false =>
      show ∃ r, value? depth ('f' :: 'a' :: 'l' :: 's' :: 'e' :: tail) = _ ∧ _
      rw [value?]
      · exact ⟨_, rfl, rfl⟩
      all_goals simp
    | true =>
      show ∃ r, value? depth ('t' :: 'r' :: 'u' :: 'e' :: tail) = _ ∧ _
      rw [value?]
      · exact ⟨_, rfl, rfl⟩
      all_goals simp

theorem reads_string (s : String) : Reads depth (quoted s) (.string s) where
  starts := ⟨'\x22', _, rfl, rfl, by decide⟩
  value tail _ := by
    obtain ⟨hless, hbody⟩ := readsBody_flatMap s.toList tail
    rw [quoted_append, value?]
    simp only [hbody, Option.bind_eq_bind, Option.bind_some, String.ofList_toList]
    exact ⟨_, rfl, rfl⟩

theorem length_lt_of_skipBlanks {r : Shorter (skipBlanks cs)} :
    r.1.length < (c :: cs).length :=
  Nat.lt_succ_of_lt (r.2.trans_le (List.dropWhile_sublist isBlank).length_le)

theorem value?_array {elements : List Json} {r : Shorter (skipBlanks cs)}
    (opens : afterMark? ']' (skipBlanks cs) = none)
    (read : elements? depth (skipBlanks cs) = some (elements, r)) :
    value? (depth + 1) ('[' :: cs) = some (.array elements, ⟨r.1, length_lt_of_skipBlanks⟩) := by
  rw [value?, if_neg (Nat.succ_ne_zero depth)]
  simp only [opens, Nat.add_sub_cancel, read, Option.bind_eq_bind, Option.bind_some]
  rfl

theorem value?_emptyArray {r : Shorter (skipBlanks cs)}
    (closes : afterMark? ']' (skipBlanks cs) = some r) :
    value? (depth + 1) ('[' :: cs) = some (.array [], ⟨r.1, length_lt_of_skipBlanks⟩) := by
  rw [value?, if_neg (Nat.succ_ne_zero depth)]
  simp only [closes]

theorem value?_object {members : List (String × Json)} {r : Shorter (skipBlanks cs)}
    (opens : afterMark? '\x7d' (skipBlanks cs) = none)
    (read : members? depth (skipBlanks cs) = some (members, r)) :
    value? (depth + 1) ('\x7b' :: cs) =
      some (.object members, ⟨r.1, length_lt_of_skipBlanks⟩) := by
  rw [value?, if_neg (Nat.succ_ne_zero depth)]
  simp only [opens, Nat.add_sub_cancel, read, Option.bind_eq_bind, Option.bind_some]
  rfl

theorem value?_emptyObject {r : Shorter (skipBlanks cs)}
    (closes : afterMark? '\x7d' (skipBlanks cs) = some r) :
    value? (depth + 1) ('\x7b' :: cs) = some (.object [], ⟨r.1, length_lt_of_skipBlanks⟩) := by
  rw [value?, if_neg (Nat.succ_ne_zero depth)]
  simp only [closes]

/-- What closes a container that has nothing in it. -/
theorem afterMark?_closing {c : Char} (closes : isBlank c = false) (tail : List Char) :
    ∃ r : Shorter (skipBlanks (c :: tail)),
      afterMark? c (skipBlanks (c :: tail)) = some r ∧ skipBlanks r.1 = skipBlanks tail := by
  obtain ⟨r, hr, hrest⟩ := afterMark?_of_eq
    ((skipBlanks_skipBlanks _).trans (skipBlanks_cons closes tail))
  exact ⟨r, hr, by rw [hrest, skipBlanks_skipBlanks]⟩

theorem reads_array {elements others : List Json}
    (h : List.Forall₂ (fun e j => Reads depth e.chars j) elements others) :
    Reads (depth + 1) (Json.array elements).chars (.array others) where
  starts := ⟨'[', _, rfl, rfl, by decide⟩
  value tail _ := by
    have htext : (Json.array elements).chars ++ tail =
        '[' :: (elementChars elements ++ ']' :: tail) := by simp [chars]
    rw [htext]
    cases h with
    | nil =>
      obtain ⟨r, hr, hbehind⟩ := afterMark?_closing (c := ']') rfl tail
      exact ⟨_, value?_emptyArray hr, hbehind⟩
    | @cons e j elements others read more =>
      have hskip := skipBlanks_elementChars read elements (']' :: tail)
      have hopens : afterMark? ']' (skipBlanks (elementChars (e :: elements) ++ ']' :: tail)) =
          none := by
        obtain ⟨more, hmore⟩ := exists_elementChars_eq e elements
        obtain ⟨c, cs, hstart, hblank, hopen⟩ := read.starts
        rw [hskip, hmore, hstart]
        exact afterMark?_of_ne (skipBlanks_cons hblank _) hopen
      have hread : ∃ r : Shorter (skipBlanks (elementChars (e :: elements) ++ ']' :: tail)),
          elements? depth (skipBlanks (elementChars (e :: elements) ++ ']' :: tail)) =
            some (j :: others, r) ∧ skipBlanks r.1 = skipBlanks tail := by
        rw [hskip]
        exact elements?_of_reads (.cons read more) (List.cons_ne_nil _ _) tail
      obtain ⟨r, hr, hbehind⟩ := hread
      exact ⟨_, value?_array hopens hr, hbehind⟩

theorem reads_object {members others : List (String × Json)}
    (h : List.Forall₂ (fun m m' => m.1 = m'.1 ∧ Reads depth m.2.chars m'.2) members others) :
    Reads (depth + 1) (Json.object members).chars (.object others) where
  starts := ⟨'\x7b', _, rfl, rfl, by decide⟩
  value tail _ := by
    have htext : (Json.object members).chars ++ tail =
        '\x7b' :: (memberChars members ++ '\x7d' :: tail) := by simp [chars]
    rw [htext]
    cases h with
    | nil =>
      obtain ⟨r, hr, hbehind⟩ := afterMark?_closing (c := '\x7d') rfl tail
      exact ⟨_, value?_emptyObject hr, hbehind⟩
    | @cons m m' members others read more =>
      have hskip := skipBlanks_memberChars m members ('\x7d' :: tail)
      have hopens : afterMark? '\x7d'
          (skipBlanks (memberChars (m :: members) ++ '\x7d' :: tail)) = none := by
        obtain ⟨more, hmore⟩ := exists_memberChars_eq m.1 m.2 members
        rw [hskip, hmore]
        exact afterMark?_of_ne (skipBlanks_cons rfl _) (by decide)
      have hread : ∃ r : Shorter (skipBlanks (memberChars (m :: members) ++ '\x7d' :: tail)),
          members? depth (skipBlanks (memberChars (m :: members) ++ '\x7d' :: tail)) =
            some (m' :: others, r) ∧ skipBlanks r.1 = skipBlanks tail := by
        rw [hskip]
        exact members?_of_reads (.cons read more) (List.cons_ne_nil _ _) tail
      obtain ⟨r, hr, hbehind⟩ := hread
      exact ⟨_, value?_object hopens hr, hbehind⟩

end Values

section Numbers

variable {depth : Nat} {text : List Char} {p : NumberParts} {n : Number}

theorem reads_number (h : NumberText p text) (stored : p.number? = some n) :
    Reads depth text (.number n) where
  starts := by
    obtain ⟨c, cs, rfl, hc⟩ := h.exists_cons
    refine ⟨c, cs, rfl, not_isBlank_of_startsNumber hc, ?_⟩
    rintro rfl
    cases hc
  value tail ends := by
    have hparts := recognizes_numberParts.complete h ends
    exact ⟨⟨tail, length_lt_of_numberParts? hparts⟩, value?_eq_number_iff.mpr ⟨p, hparts, stored⟩,
      rfl⟩

/-- Decimal digits of a number do not start with a zero, unless it is zero. -/
theorem wholeText_toDigits (m : Nat) : WholeText (Nat.toDigits 10 m) where
  ne_nil := Nat.toDigits_ne_nil
  isDigit _ := Nat.isDigit_of_mem_toDigits (by decide) (by decide)
  eq_zero := by
    induction m using Nat.strongRecOn with
    | _ m ih =>
    by_cases hm : m < 10
    · rw [Nat.toDigits_of_lt_base hm]
      simp
    · rw [Nat.toDigits_of_base_le (by decide) (by omega), List.head?_append_of_ne_nil _
        Nat.toDigits_ne_nil]
      intro hhead
      have hzero := congrArg (Nat.ofDigitChars 10 · 0) (ih (m / 10) (by omega) hhead)
      rw [Nat.ofDigitChars_toDigits (by decide) (by decide)] at hzero
      have hvalue : Nat.ofDigitChars 10 ['0'] 0 = 0 := rfl
      omega

theorem digitsValue_toDigits (m : Nat) : digitsValue 10 (Nat.toDigits 10 m) = m := by
  rw [← ofDigits_eq_digitsValue (wholeText_toDigits m).isDigit]
  exact Nat.ofDigitChars_toDigits (by decide) (by decide)

theorem reads_natural (n : UInt64) :
    Reads depth (Number.natural n).text.toList (.number (.natural n)) := by
  have hwhole := wholeText_toDigits n.toNat
  have htext : NumberText ⟨false, Nat.toDigits 10 n.toNat, none, none⟩
      (Nat.toDigits 10 n.toNat) := by
    simpa using NumberText.unsigned (.parts hwhole .absent .absent)
  rw [Number.text, Nat.toList_repr]
  refine reads_number htext ?_
  rw [NumberParts.number?_eq hwhole]
  simp [digitsValue_toDigits, n.toNat_lt]

theorem reads_negative {n : Int64} (h : n < 0) :
    Reads depth (Number.negative n).text.toList (.number (.negative n)) := by
  have hint : n.toInt < 0 := Int64.lt_iff_toInt_lt.mp h
  obtain ⟨m, hm⟩ := Int.eq_negSucc_of_lt_zero hint
  have hlow := n.le_toInt
  have hwhole := wholeText_toDigits (m + 1)
  have htext : NumberText ⟨true, Nat.toDigits 10 (m + 1), none, none⟩
      ('-' :: Nat.toDigits 10 (m + 1)) := by
    simpa using NumberText.signed (.parts hwhole .absent .absent)
  have hchars : (Number.negative n).text.toList = '-' :: Nat.toDigits 10 (m + 1) := by
    simp [Number.text, hm, Int.repr, Nat.toList_repr]
  rw [hchars]
  refine reads_number htext ?_
  have hrange : 0 < m + 1 ∧ m + 1 ≤ 2 ^ 63 := by omega
  have hlarge : ¬ 2 ^ 64 ≤ m + 1 := by omega
  have hstored : Int64.ofInt (-((m + 1 : Nat) : Int)) = n := by
    rw [show -((m + 1 : Nat) : Int) = n.toInt by omega, Int64.ofInt_toInt]
  rw [NumberParts.number?_eq (p := ⟨true, Nat.toDigits 10 (m + 1), none, none⟩) hwhole]
  simp only [digitsValue_toDigits, hrange, hlarge, hstored]
  rfl

end Numbers

/-- A written value is read as that value. -/
theorem Exact.reads {depth : Nat} {j : Json} (h : Exact depth j) : Reads depth j.chars j := by
  induction h with
  | null => exact reads_null
  | bool b => exact reads_bool b
  | natural n => exact reads_natural n
  | negative below => exact reads_negative below
  | string s => exact reads_string s
  | array _ ih => exact reads_array (List.forall₂_same.mpr ih)
  | object _ ih => exact reads_object (List.forall₂_same.mpr fun m hm => ⟨rfl, ih m hm⟩)

/-- A text that is read as a value is that value's, whatever blanks stand behind it. -/
theorem Reads.parse?_eq {text : List Char} {j : Json} (h : Reads depthLimit text j)
    (back : List Char) (blank : ∀ c ∈ back, isBlank c = true) :
    parse? (String.ofList (text ++ back)) = some j := by
  have hends : EndsBefore inNumber back := fun c hc =>
    not_inNumber_of_isBlank (blank c (List.mem_of_mem_head? hc))
  have hback : skipBlanks back = [] := List.dropWhile_eq_nil_iff.mpr blank
  have hread : ∃ r : Shorter (skipBlanks (String.ofList (text ++ back)).toList),
      value? depthLimit (skipBlanks (String.ofList (text ++ back)).toList) = some (j, r) ∧
        skipBlanks r.1 = skipBlanks back := by
    rw [String.toList_ofList, h.skipBlanks_append]
    exact h.value back hends
  obtain ⟨⟨rest, _⟩, hvalue, hrest⟩ := hread
  rw [parse?, hvalue]
  exact if_pos (hrest.trans hback)

/-- The text of a value is read back, as long as it does not nest too deep and no float is in it. -/
@[simp] theorem parse?_text {j : Json} (h : Exact depthLimit j) : parse? j.text = some j := by
  have hparse := h.reads.parse?_eq [] (by simp)
  rwa [List.append_nil] at hparse

end Formula.Json
