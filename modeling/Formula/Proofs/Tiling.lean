import Formula.Proofs.ScannedTokens

/-! How tokens cut their source. Each lies where its position and its span say, over at least one
code point, one behind the other, and what lies in front of a token or between two is blank. -/
namespace Formula

structure Piece where
  token : Token
  stop : Nat

namespace Piece

def Holds (x : Piece) (n : Nat) : Prop := x.token.position ≤ n ∧ n < x.stop

structure Fits (source : List Char) (x : Piece) : Prop where
  nonempty : x.token.position < x.stop
  inside : x.stop ≤ source.length
  span : x.token.span = ⟨byteLength (source.take x.token.position),
    byteLength (source.extract x.token.position x.stop)⟩
  kind : x.token.kind ≠ .illegal ∧ x.token.kind ≠ .eof

end Piece

structure Tiling (source : List Char) (start stop : Nat) (pieces : List Piece) : Prop where
  le : start ≤ stop
  fits : ∀ x ∈ pieces, x.Fits source
  within : ∀ x ∈ pieces, start ≤ x.token.position ∧ x.stop ≤ stop
  ordered : pieces.Pairwise fun x y => x.stop ≤ y.token.position
  blank : ∀ n c, start ≤ n → n < stop → source[n]? = some c → (∀ x ∈ pieces, ¬ x.Holds n) →
    Text.isBlank c = true

/-- What comes last in a source that has been cut up to a position: the end behind the whole of it,
or the fault of a text that no lexeme begins. -/
def Closes (source : List Char) (stop : Nat) : Except ScanError Token → Prop
  | .ok t => stop = source.length ∧ t = ⟨.eof, none, source.length, ⟨byteLength source, 0⟩⟩
  | .error e => ∃ c cs f, source.drop stop = c :: cs ∧ Lexeme.scan c cs = .error f ∧
      e = f.at ⟨stop, byteLength (source.take stop)⟩

namespace Tiling

variable {source : List Char} {start stop : Nat} {x : Piece} {pieces : List Piece}

theorem nil (le : start ≤ stop)
    (blank : ∀ n c, start ≤ n → n < stop → source[n]? = some c → Text.isBlank c = true) :
    Tiling source start stop [] :=
  ⟨le, by simp, by simp, .nil, fun n c hstart hstop hc _ => blank n c hstart hstop hc⟩

theorem cons (fits : x.Fits source) (le : start ≤ x.token.position)
    (blank : ∀ n c, start ≤ n → n < x.token.position → source[n]? = some c →
      Text.isBlank c = true)
    (behind : Tiling source x.stop stop pieces) : Tiling source start stop (x :: pieces) := by
  have hnonempty := fits.nonempty
  have hle := behind.le
  refine ⟨by omega, List.forall_mem_cons.mpr ⟨fits, behind.fits⟩, ?_, ?_, ?_⟩
  · refine List.forall_mem_cons.mpr ⟨⟨le, hle⟩, fun y hy => ?_⟩
    have hy := behind.within y hy
    omega
  · exact .cons (fun y hy => (behind.within y hy).1) behind.ordered
  · intro n c hstart hstop hc hfree
    obtain ⟨hx, hpieces⟩ := List.forall_mem_cons.mp hfree
    by_cases hbefore : n < x.token.position
    · exact blank n c hstart hbefore hc
    · have hbehind : x.stop ≤ n := by
        by_contra hlt
        exact hx ⟨by omega, by omega⟩
      exact behind.blank n c hbehind hstop hc hpieces

end Tiling

/-- A code point that lies between a text and what follows it is one of those in between. -/
theorem mem_of_between {front middle : List Char} {n : Nat} {c : Char} (rest : List Char)
    (hfront : front.length ≤ n) (hrest : n < (front ++ middle).length)
    (hc : (front ++ middle ++ rest)[n]? = some c) : c ∈ middle := by
  rw [List.getElem?_append_left hrest, List.getElem?_append_right hfront] at hc
  exact List.mem_of_getElem? hc

def Lexeme.piece (front : List Char) (x : Lexeme) : Piece :=
  ⟨x.at (Place.start.advance front), (front ++ x.text).length⟩

theorem Lexeme.position_piece (front : List Char) (x : Lexeme) :
    (x.piece front).token.position = front.length := by
  simp [piece, Lexeme.at, Place.start, Place.advance]

theorem Lexeme.fits_piece {c : Char} {cs : List Char} {x : Lexeme} (h : scan c cs = .ok x)
    (front : List Char) : (x.piece front).Fits (front ++ c :: cs) := by
  have hposition := x.position_piece front
  have hpos := List.length_pos_iff.mpr (text_ne_nil_of_scan h)
  rw [← scan_text_append_rest h]
  refine ⟨?_, ?_, ?_, (carries_of_scan h).ne_illegal, (inner_of_scan (p := .start) h).2⟩
  · rw [hposition]
    simp [piece, hpos]
  · simp [piece]
  · rw [hposition]
    simp [piece, Lexeme.at, Place.start, Place.advance, Place.span]

/-- What is scanned behind a text cuts the whole from there on. -/
theorem Lexes.exists_tiling {p : Place} {cs : List Char} {ts : List Token}
    {last : Except ScanError Token} (h : Lexes p cs ts last) (front : List Char)
    (place : p = Place.start.advance front) :
    ∃ pieces stop, ts = pieces.map Piece.token ∧
      Tiling (front ++ cs) front.length stop pieces ∧ Closes (front ++ cs) stop last := by
  -- What has been scanned so far goes into the text in front, from which all places are counted.
  induction h generalizing front with
  | @finish p cs blank =>
    subst place
    refine ⟨[], (front ++ cs).length, rfl, .nil (by simp) ?_, rfl, ?_⟩
    · intro n c hstart hstop hc
      exact blank c (mem_of_between [] hstart hstop (by simpa using hc))
    · simp [Token.eof, Place.start, Place.advance, Place.span]
  | @fault p blanks cs c f blank starts refused =>
    subst place
    rw [← List.append_assoc]
    refine ⟨[], (front ++ blanks).length, rfl, .nil (by simp) ?_, c, cs, f, ?_, refused, ?_⟩
    · intro n d hstart hstop hd
      exact blank d (mem_of_between _ hstart hstop hd)
    · rw [List.drop_left]
    · rw [List.take_left, ← Place.advance_append]
      simp [Place.start, Place.advance]
  | @token p blanks cs c x ts last blank scanned behind ih =>
    subst place
    have hplace : ((Place.start.advance front).advance blanks).advance x.text =
        Place.start.advance (front ++ blanks ++ x.text) := by simp
    obtain ⟨pieces, stop, rfl, htiling, hcloses⟩ := ih _ hplace
    have hwhole : front ++ blanks ++ x.text ++ x.rest = front ++ blanks ++ c :: cs := by
      rw [List.append_assoc, Lexeme.scan_text_append_rest scanned]
    rw [hwhole] at htiling hcloses
    rw [← Place.advance_append, ← List.append_assoc]
    refine ⟨x.piece (front ++ blanks) :: pieces, stop, rfl, ?_, hcloses⟩
    have hposition := x.position_piece (front ++ blanks)
    refine .cons (Lexeme.fits_piece scanned (front ++ blanks)) ?_ ?_ htiling
    · simp [hposition]
    · intro n d hstart hstop hd
      rw [hposition] at hstop
      exact blank d (mem_of_between _ hstart hstop hd)

/-- The tokens of a source tile it, up to its end or up to its first fault: every code point before
and between them, and behind them if there is no fault, is blank. -/
theorem items_tile (source : String) :
    ∃ pieces stop last,
      (Lexer.ofString source).items = (pieces.map Piece.token).map .ok ++ [last] ∧
        Tiling source.toList 0 stop pieces ∧ Closes source.toList stop last := by
  obtain ⟨ts, last, hlexes⟩ := exists_lexes .start source.toList
  obtain ⟨pieces, stop, rfl, htiling, hcloses⟩ := hlexes.exists_tiling [] rfl
  exact ⟨pieces, stop, last, hlexes.items_eq, htiling, hcloses⟩

end Formula
