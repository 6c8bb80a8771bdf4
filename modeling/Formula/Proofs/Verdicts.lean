import Formula.Expr.Plan
import Formula.Proofs.CheckedTokens
import Formula.Token.Lexer

/-! Checks and plans that move one cursor. What has been called before decides where a check begins,
and nothing else: a check is a verdict on the tokens behind the cursor. -/
namespace Formula

inductive Move where
  | next
  | rewind
  | checkBalance
  | checkSyntax
  | build
  | buildAll
  deriving DecidableEq, Repr

def Balanced (ts : List Token) : Prop := countKind .openParen ts = countKind .closeParen ts

instance (ts : List Token) : Decidable (Balanced ts) :=
  inferInstanceAs (Decidable (countKind .openParen ts = countKind .closeParen ts))

structure Accepted (ts : List Token) : Prop where
  leads : Kind.illegal.Leads ts
  ends : (Kind.illegal.after ts).mayEnd = true

namespace Cursor

def move (c : Cursor) : Move → Cursor
  | .next => c.advance
  | .rewind => c.rewind
  | .checkBalance => c.checkBalance.2
  | .checkSyntax => c.checkSyntax.2
  | .build => c.build.2
  | .buildAll => c.buildAll.2

def run (c : Cursor) (moves : List Move) : Cursor := moves.foldl move c

structure Over (n : Nat) (ts : List Token) (c : Cursor) : Prop where
  sourceLength : c.sourceLength = n
  tokens : c.tokens = ts

variable {n : Nat} {ts : List Token} {c : Cursor}

section Runs

@[simp] theorem run_nil (c : Cursor) : c.run [] = c := rfl

@[simp] theorem run_cons (c : Cursor) (m : Move) (moves : List Move) :
    c.run (m :: moves) = (c.move m).run moves := rfl

theorem Over.leaving (h : c.Over n ts) (rest : List Token) : (c.leaving rest).Over n ts :=
  ⟨h.sourceLength, h.tokens⟩

theorem Over.reset_eq (h : c.Over n ts) : c.reset = ofTokens n ts := by
  obtain ⟨m, us, index, hindex⟩ := c
  obtain ⟨rfl, rfl⟩ := h
  rfl

theorem Over.eq_of_index {d : Cursor} (h : c.Over n ts) (h' : d.Over n ts)
    (hindex : c.index = d.index) : c = d := by
  obtain ⟨m, us, i, hi⟩ := c
  obtain ⟨m', us', j, hj⟩ := d
  obtain rfl : m = m' := h.sourceLength.trans h'.sourceLength.symm
  obtain rfl : us = us' := h.tokens.trans h'.tokens.symm
  obtain rfl : i = j := hindex
  rfl

/-- No move changes the tokens or the length of their source. -/
theorem Over.move (h : c.Over n ts) (m : Move) : (c.move m).Over n ts := by
  cases m with
  | next => exact h.leaving _
  | rewind => exact ⟨h.sourceLength, h.tokens⟩
  | checkBalance =>
    simp only [Cursor.move, checkBalance]
    split
    · exact ⟨h.sourceLength, h.tokens⟩
    · exact h.leaving _
  | checkSyntax =>
    rcases c.checkSyntax_cases with
      ⟨_, _, hcheck⟩ | ⟨_, _, hcheck⟩ | ⟨_, _, _, _, _, _, hcheck⟩
    · rw [Cursor.move, hcheck]
      exact ⟨h.sourceLength, h.tokens⟩
    · rw [Cursor.move, hcheck]
      exact h.leaving _
    · rw [Cursor.move, hcheck]
      exact h.leaving _
  | build => exact h.leaving _
  | buildAll =>
    simp only [Cursor.move, buildAll, Cursor.build]
    split
    · next heq =>
      obtain ⟨_, rfl⟩ := Prod.mk.inj heq
      exact h.leaving _
    · next heq =>
      obtain ⟨_, rfl⟩ := Prod.mk.inj heq
      split
      · exact h.leaving _
      · exact (h.leaving _).leaving _

theorem Over.run (h : c.Over n ts) (moves : List Move) : (c.run moves).Over n ts := by
  induction moves generalizing c with
  | nil => exact h
  | cons m moves ih => exact ih (h.move m)

theorem index_run_next (c : Cursor) (count : Nat) :
    (c.run (List.replicate count .next)).index = min (c.index + count) c.tokens.length := by
  induction count generalizing c with
  | zero => simp [c.index_le]
  | succ count ih =>
    have hindex := c.index_le
    have hstep : c.advance.index = min (c.index + 1) c.tokens.length := by
      simp only [advance, Cursor.leaving, List.length_tail, length_rest]
      omega
    rw [List.replicate_succ, run_cons, ih]
    simp only [Cursor.move, hstep, tokens_advance]
    omega

/-- The moves lead to every place in the tokens and to nothing else. -/
theorem exists_run_iff : (∃ moves, (ofTokens n ts).run moves = c) ↔ c.Over n ts := by
  have hstart : (ofTokens n ts).Over n ts := ⟨rfl, rfl⟩
  constructor
  · rintro ⟨moves, rfl⟩
    exact hstart.run moves
  · intro h
    refine ⟨List.replicate c.index .next, (hstart.run _).eq_of_index h ?_⟩
    have hindex := c.index_le
    rw [h.tokens] at hindex
    rw [index_run_next]
    simp [ofTokens, hindex]

end Runs

section Verdicts

theorem checkBalance_of_balanced (h : Balanced c.rest) : c.checkBalance = (.ok (), c.reset) := by
  rw [checkBalance]
  exact if_pos h

theorem checkBalance_of_not_balanced (h : ¬ Balanced c.rest) :
    c.checkBalance = (.error (.unbalanced (countKind .openParen c.rest)
      (countKind .closeParen c.rest) c.sourceLength), c.leaving []) := by
  rw [checkBalance]
  exact if_neg h

theorem checkBalance_eq_ok_iff : c.checkBalance.1 = .ok () ↔ Balanced c.rest := by
  by_cases h : Balanced c.rest
  · simp [checkBalance_of_balanced h, h]
  · simp [checkBalance_of_not_balanced h, h]

theorem checkSyntax_eq_ok_iff : c.checkSyntax.1 = .ok () ↔ Accepted c.rest := by
  rcases c.checkSyntax_cases with
    ⟨hleads, hends, hcheck⟩ | ⟨_, hends, hcheck⟩ | ⟨before, t, rest, hrest, _, hstuck, hcheck⟩
  · simpa [hcheck] using Accepted.mk hleads hends
  · have hrefused : ¬ Accepted c.rest := fun h => by simp [h.ends] at hends
    simp [hcheck, hrefused]
  · have hrefused : ¬ Accepted c.rest := fun h => by
      have hleads := h.leads
      rw [hrest, Kind.leads_append, Kind.leads_cons, hstuck] at hleads
      simp at hleads
    simp [hcheck, hrefused]

/-- A failed check for balance leaves nothing behind the cursor. -/
theorem rest_checkBalance {e : GrammarError} (h : c.checkBalance.1 = .error e) :
    c.checkBalance.2.rest = [] := by
  by_cases hbalanced : Balanced c.rest
  · simp [checkBalance_of_balanced hbalanced] at h
  · rw [checkBalance_of_not_balanced hbalanced]
    exact rest_leaving List.nil_suffix

/-- An unfinished sequence has been read to its end. -/
theorem rest_checkSyntax_of_unfinished {m : Nat} (h : c.checkSyntax.1 = .error (.unfinished m)) :
    c.checkSyntax.2.rest = [] ∧ c.checkSyntax.2.sourceLength = m := by
  rcases c.checkSyntax_cases with
    ⟨_, _, hcheck⟩ | ⟨_, _, hcheck⟩ | ⟨_, _, _, _, _, _, hcheck⟩
  · simp [hcheck] at h
  · obtain rfl : c.sourceLength = m := by simpa [hcheck] using h
    rw [hcheck]
    exact ⟨rest_leaving List.nil_suffix, rfl⟩
  · simp [hcheck] at h

/-- A misplaced token has been read, and nothing behind it. -/
theorem rest_checkSyntax_of_transition {last : Option Token} {t : Token}
    (h : c.checkSyntax.1 = .error (.transition last t)) :
    ∃ before, c.rest = before ++ t :: c.checkSyntax.2.rest ∧ Kind.illegal.Leads before ∧
      Misplaced before t ∧ last = before.getLast? := by
  rcases c.checkSyntax_cases with
    ⟨_, _, hcheck⟩ | ⟨_, _, hcheck⟩ | ⟨before, u, rest, hrest, hleads, hstuck, hcheck⟩
  · simp [hcheck] at h
  · simp [hcheck] at h
  · obtain ⟨hlast, rfl⟩ : before.getLast? = last ∧ u = t := by simpa [hcheck] using h
    have hsuffix : rest <:+ c.tokens := by
      have hbehind : rest <:+ c.rest := ⟨before ++ [u], by simp [hrest]⟩
      exact hbehind.trans c.rest_suffix
    rw [hcheck, rest_leaving hsuffix]
    exact ⟨before, hrest, hleads, hstuck, hlast.symm⟩

end Verdicts

/-- What the checks of a cursor say, and what they say after a check that has passed or failed. -/
structure JudgesRest (n : Nat) (ts : List Token) (c : Cursor) : Prop where
  balance : c.checkBalance.1 = .ok () ↔ Balanced c.rest
  grammar : c.checkSyntax.1 = .ok () ↔ Accepted c.rest
  balance_passed : c.checkBalance.1 = .ok () → c.checkBalance.2 = ofTokens n ts
  grammar_passed : c.checkSyntax.1 = .ok () → c.checkSyntax.2 = ofTokens n ts
  unbalanced : ∀ e, c.checkBalance.1 = .error e → c.checkBalance.2.checkBalance.1 = .ok ()
  unfinished : ∀ m, c.checkSyntax.1 = .error (.unfinished m) →
    c.checkSyntax.2.checkSyntax.1 = .error (.unfinished m)
  misplaced : ∀ last t, c.checkSyntax.1 = .error (.transition last t) →
    ∃ before rest, c.rest = before ++ t :: rest ∧ Kind.illegal.Leads before ∧
      Misplaced before t ∧ last = before.getLast? ∧
      (c.checkSyntax.2.checkSyntax.1 = .ok () ↔ Accepted rest)

theorem Over.judgesRest (h : c.Over n ts) : c.JudgesRest n ts where
  balance := checkBalance_eq_ok_iff
  grammar := checkSyntax_eq_ok_iff
  balance_passed hok := by
    rw [checkBalance_of_balanced (checkBalance_eq_ok_iff.mp hok)]
    exact h.reset_eq
  grammar_passed hok := by
    rcases c.checkSyntax_cases with
      ⟨_, _, hcheck⟩ | ⟨_, _, hcheck⟩ | ⟨_, _, _, _, _, _, hcheck⟩
    · rw [hcheck]
      exact h.reset_eq
    · simp [hcheck] at hok
    · simp [hcheck] at hok
  unbalanced e herror := by
    rw [checkBalance_eq_ok_iff, rest_checkBalance herror]
    rfl
  unfinished m herror := by
    obtain ⟨hrest, hlength⟩ := rest_checkSyntax_of_unfinished herror
    rw [checkSyntax, hrest, ← hlength]
    rfl
  misplaced last t herror := by
    obtain ⟨before, hrest, hleads, hstuck, hlast⟩ := rest_checkSyntax_of_transition herror
    exact ⟨before, _, hrest, hleads, hstuck, hlast, checkSyntax_eq_ok_iff⟩

end Cursor

/-- Calls on a cursor lead to every place in its tokens and to nothing else. There a check is a
verdict on the tokens behind the cursor, and takes the cursor back to the first token if it passes.
After a check that has failed, the balance is always fine, as nothing is left; an unfinished
sequence is unfinished again; of one with a misplaced token, what follows that token is judged. -/
theorem checks_judge_rest (n : Nat) (ts : List Token) :
    (∀ c : Cursor, (∃ moves, (Cursor.ofTokens n ts).run moves = c) ↔ c.Over n ts) ∧
      ∀ moves, ((Cursor.ofTokens n ts).run moves).JudgesRest n ts := by
  have hstart : (Cursor.ofTokens n ts).Over n ts := ⟨rfl, rfl⟩
  exact ⟨fun c => Cursor.exists_run_iff, fun moves => (hstart.run moves).judgesRest⟩

/-- The tokens of `(1 1 + 2`. -/
def unclosedPair : List Token :=
  [⟨.openParen, none, 0, ⟨0, 1⟩⟩, ⟨.integer, some (.integer 1), 1, ⟨1, 1⟩⟩,
    ⟨.integer, some (.integer 1), 3, ⟨3, 1⟩⟩, ⟨.plus, none, 5, ⟨5, 1⟩⟩,
    ⟨.integer, some (.integer 2), 7, ⟨7, 1⟩⟩, ⟨.eof, none, 8, ⟨8, 0⟩⟩]

/-- Neither check of these tokens passes, and each passes where it is made a second time; behind the
first token the parentheses are in balance. -/
theorem unclosedPair_passes_again :
    scan "(1 1 + 2" = .ok unclosedPair ∧ ¬ Balanced unclosedPair ∧ ¬ Accepted unclosedPair ∧
      ((Cursor.ofTokens 8 unclosedPair).run [.next]).checkBalance.1 = .ok () ∧
      ((Cursor.ofTokens 8 unclosedPair).run [.checkBalance]).checkBalance.1 = .ok () ∧
      ((Cursor.ofTokens 8 unclosedPair).run [.checkSyntax]).checkSyntax.1 = .ok () := by
  have hscan : scan "(1 1 + 2" = .ok unclosedPair := by decide +kernel
  have hrefused : ¬ Accepted unclosedPair := by
    have hcheck : (Cursor.ofTokens 8 unclosedPair).checkSyntax.1 ≠ .ok () := by decide +kernel
    rwa [Ne, Cursor.checkSyntax_eq_ok_iff, Cursor.rest_ofTokens] at hcheck
  exact ⟨hscan, by decide, hrefused, by decide +kernel, by decide +kernel, by decide +kernel⟩

end Formula
