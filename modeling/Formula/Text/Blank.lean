import Formula.Text.Range

/-!
The blank characters: the twenty-five code points that have the Unicode property `White_Space`.
-/

namespace Formula.Text

def blanks : List (Nat × Nat) :=
  [(0x09, 0x0D), (0x20, 0x20), (0x85, 0x85), (0xA0, 0xA0), (0x1680, 0x1680), (0x2000, 0x200A),
    (0x2028, 0x2029), (0x202F, 0x202F), (0x205F, 0x205F), (0x3000, 0x3000)]

/-- Whether a character is blank: a space, a tab, a line break or one of their kind. -/
def isBlank (c : Char) : Bool :=
  covers blanks c.toNat

end Formula.Text
