import Formula.Token.Cursor
import Formula.Token.Follow

/-!
The two checks of a token sequence before it is planned: as many closing as opening parentheses,
and each kind admitted by the one before it. A check reads from the cursor on; it moves the cursor
back to the first token if it passes, and leaves it where the fault was found otherwise.
-/

namespace Formula

inductive GrammarError where
  /-- The parentheses that open and close, in a source of some length in bytes. -/
  | unbalanced (opened closed sourceLength : Nat)
  /-- A token that may not stand where it does, and the one before it. -/
  | transition (last : Option Token) (next : Token)
  | unfinished (sourceLength : Nat)
  deriving DecidableEq, Repr

namespace GrammarError

/-- The kind that the second token of a transition follows. -/
def lastKind (last : Option Token) : Kind := last.elim .illegal Token.kind

def diagnostic : GrammarError → Diagnostic
  | .unbalanced opened closed sourceLength =>
    ⟨"unbalanced parenthesis", some "every `(` needs a matching `)`",
      some ⟨Nat.repr opened ++ " opened, " ++ Nat.repr closed ++ " closed", ⟨0, sourceLength⟩⟩⟩
  | .transition last next =>
    let before := last.elim (lastKind last).display Token.describe
    ⟨"cannot transition token types from " ++ before ++ " to " ++ next.describe,
      some ("`" ++ (lastKind last).display ++ "` cannot be followed by `" ++ next.kind.display ++ "`"),
      some ⟨"unexpected here", next.span⟩⟩
  | .unfinished sourceLength =>
    ⟨"unexpected end of expression",
      some "the expression stops after an operator or an opening parenthesis",
      some ⟨"expression ends here", ⟨sourceLength - 1, sourceLength - (sourceLength - 1)⟩⟩⟩

end GrammarError

inductive Walk where
  | through (last : Option Token)
  | stuck (last : Option Token) (next : Token) (rest : List Token)
  deriving DecidableEq, Repr

def Walk.run (last : Option Token) : List Token → Walk
  | [] => .through last
  | t :: ts =>
    if (GrammarError.lastKind last).admits t.kind then Walk.run (some t) ts
    else .stuck last t ts

def countKind (k : Kind) (ts : List Token) : Nat := ts.countP fun t => t.kind = k

namespace Cursor

def checkBalance (c : Cursor) : Except GrammarError Unit × Cursor :=
  let opened := countKind .openParen c.rest
  let closed := countKind .closeParen c.rest
  if opened = closed then (.ok (), c.reset)
  else (.error (.unbalanced opened closed c.sourceLength), c.leaving [])

/-- Checks that every token may follow the one before it and that the last one may end. -/
def checkSyntax (c : Cursor) : Except GrammarError Unit × Cursor :=
  match Walk.run none c.rest with
  | .through last =>
    if (GrammarError.lastKind last).mayEnd then (.ok (), c.reset)
    else (.error (.unfinished c.sourceLength), c.leaving [])
  | .stuck last next rest => (.error (.transition last next), c.leaving rest)

/-- The tokens that the second check looks at: all of them, or those up to the first fault. -/
def checked (c : Cursor) : List Token :=
  match Walk.run none c.rest with
  | .through _ => c.rest
  | .stuck _ _ rest => c.rest.take (c.rest.length - rest.length)

@[simp] theorem tokens_checkBalance (c : Cursor) : c.checkBalance.2.tokens = c.tokens := by
  simp only [checkBalance]
  split <;> rfl

@[simp] theorem tokens_checkSyntax (c : Cursor) : c.checkSyntax.2.tokens = c.tokens := by
  unfold checkSyntax
  split
  · split <;> rfl
  · rfl

end Cursor
end Formula
