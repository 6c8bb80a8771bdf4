import Formula.Token

/-!
A cursor over scanned tokens. Everything that reads tokens moves it, and it never leaves the list.
-/

namespace Formula

structure Cursor where
  /-- The length of the tokens' source in bytes, where remarks on its end are placed. -/
  sourceLength : Nat
  tokens : List Token
  index : Nat
  index_le : index ≤ tokens.length

namespace Cursor

def ofTokens (sourceLength : Nat) (tokens : List Token) : Cursor :=
  ⟨sourceLength, tokens, 0, Nat.zero_le _⟩

def rest (c : Cursor) : List Token := c.tokens.drop c.index

def current? (c : Cursor) : Option Token := c.tokens[c.index]?

def hasNext (c : Cursor) : Bool := c.index < c.tokens.length

def reset (c : Cursor) : Cursor := { c with index := 0, index_le := Nat.zero_le _ }

/-- The cursor in front of the last tokens of the list, as many as `rest` holds. -/
def leaving (c : Cursor) (rest : List Token) : Cursor :=
  { c with index := c.tokens.length - rest.length, index_le := Nat.sub_le _ _ }

/-- The cursor one token further, or where it is if none is left. -/
def advance (c : Cursor) : Cursor := c.leaving c.rest.tail

/-- The cursor one token back, or where it is if there is none before it. -/
def rewind (c : Cursor) : Cursor :=
  { c with index := c.index - 1, index_le := Nat.le_trans (Nat.sub_le _ _) c.index_le }

@[simp] theorem tokens_reset (c : Cursor) : c.reset.tokens = c.tokens := rfl

@[simp] theorem tokens_leaving (c : Cursor) (rest : List Token) :
    (c.leaving rest).tokens = c.tokens := rfl

@[simp] theorem tokens_advance (c : Cursor) : c.advance.tokens = c.tokens := rfl

@[simp] theorem tokens_rewind (c : Cursor) : c.rewind.tokens = c.tokens := rfl

@[simp] theorem rest_ofTokens (n : Nat) (tokens : List Token) :
    (ofTokens n tokens).rest = tokens := rfl

@[simp] theorem rest_reset (c : Cursor) : c.reset.rest = c.tokens := rfl

theorem rest_suffix (c : Cursor) : c.rest <:+ c.tokens := List.drop_suffix _ _

/-- Going to a tail of the list leaves exactly that tail. -/
theorem rest_leaving {c : Cursor} {rest : List Token} (h : rest <:+ c.tokens) :
    (c.leaving rest).rest = rest := by
  simpa [leaving, Cursor.rest] using (List.suffix_iff_eq_drop.mp h).symm

@[simp] theorem rest_advance (c : Cursor) : c.advance.rest = c.rest.tail :=
  rest_leaving ((List.tail_suffix _).trans c.rest_suffix)

@[simp] theorem leaving_rest (c : Cursor) : c.leaving c.rest = c := by
  obtain ⟨n, tokens, index, hindex⟩ := c
  simp only [leaving, rest, List.length_drop, mk.injEq, true_and]
  omega

theorem length_rest (c : Cursor) : c.rest.length = c.tokens.length - c.index := by
  simp [rest]

theorem current?_eq_head? (c : Cursor) : c.current? = c.rest.head? := by
  simp [current?, rest, List.head?_drop]

theorem index_le_advance (c : Cursor) : c.index ≤ c.advance.index := by
  have := c.index_le
  simp only [advance, leaving, List.length_tail, length_rest]
  omega

theorem index_advance {c : Cursor} {t : Token} (h : c.current? = some t) :
    c.advance.index = c.index + 1 := by
  obtain ⟨hlt, -⟩ := List.getElem?_eq_some_iff.mp h
  simp only [advance, leaving, List.length_tail, length_rest]
  omega

theorem advance_of_current?_eq_none {c : Cursor} (h : c.current? = none) : c.advance = c := by
  have hrest : c.rest = [] := by rwa [current?_eq_head?, List.head?_eq_none_iff] at h
  rw [advance, hrest, List.tail_nil, ← hrest, leaving_rest]

/-- Stepping back undoes a step over a token. -/
theorem rewind_advance {c : Cursor} {t : Token} (h : c.current? = some t) :
    c.advance.rewind = c := by
  have hindex := index_advance h
  obtain ⟨n, tokens, index, hle⟩ := c
  simp only [rewind, hindex, Nat.add_sub_cancel]
  rfl

section Tails

variable {c : Cursor} {t : Token} {ts : List Token}

theorem current?_leaving (h : ts <:+ c.tokens) : (c.leaving ts).current? = ts.head? := by
  rw [current?_eq_head?, rest_leaving h]

theorem advance_leaving (h : ts <:+ c.tokens) : (c.leaving ts).advance = c.leaving ts.tail := by
  rw [advance, rest_leaving h]
  rfl

theorem rewind_leaving (h : t :: ts <:+ c.tokens) : (c.leaving ts).rewind = c.leaving (t :: ts) := by
  have hadvance : (c.leaving (t :: ts)).advance = c.leaving ts := advance_leaving h
  rw [← hadvance]
  exact rewind_advance (current?_leaving h)

end Tails

end Cursor
end Formula
