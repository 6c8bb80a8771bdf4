import Formula.Text.Combining
import Formula.Text.Printable

/-!
Quoted text, as diagnostics and printed trees show it: between two quote marks, with every
character that a reader could not see written as an escape.
-/

namespace Formula.Text

/-- A character as it stands between two `quote` marks. -/
def escape (quote c : Char) : List Char :=
  if c = '\x00' then ['\\', '0']
  else if c = '\t' then ['\\', 't']
  else if c = '\n' then ['\\', 'n']
  else if c = '\r' then ['\\', 'r']
  else if c = '\\' ∨ c = quote then ['\\', c]
  else if isCombining c ∨ ¬ isPrintable c then
    ['\\', 'u', '\x7b'] ++ Nat.toDigits 16 c.toNat ++ ['\x7d']
  else [c]

def quoted (quote : Char) (cs : List Char) : List Char :=
  quote :: cs.flatMap (escape quote) ++ [quote]

def quotedString (s : String) : String :=
  String.ofList (quoted '\x22' s.toList)

def quotedChar (c : Char) : String :=
  String.ofList (quoted '\x27' [c])

end Formula.Text
