/-!
What is reported about a faulty expression: a message, a hint, and the stretch of the source that
they are about.
-/

namespace Formula

/-- A stretch of a source, in bytes of its UTF-8 form. -/
structure Span where
  offset : Nat
  length : Nat
  deriving DecidableEq, Repr

structure Label where
  text : String
  span : Span
  deriving DecidableEq, Repr

structure Diagnostic where
  message : String
  help : Option String
  label : Option Label
  deriving DecidableEq, Repr

/-- The name that a report gives to the source it is about: that of its file if it has one. -/
def sourceName (file : Option String) : String := file.getD "<expression>"

def byteLength (cs : List Char) : Nat := cs.foldr (fun c n => c.utf8Size + n) 0

@[simp] theorem byteLength_nil : byteLength [] = 0 := rfl

@[simp] theorem byteLength_cons (c : Char) (cs : List Char) :
    byteLength (c :: cs) = c.utf8Size + byteLength cs := rfl

@[simp] theorem byteLength_append (cs ds : List Char) :
    byteLength (cs ++ ds) = byteLength cs + byteLength ds := by
  induction cs with
  | nil => simp
  | cons c cs ih =>
    rw [List.cons_append, byteLength_cons, byteLength_cons, ih, Nat.add_assoc]

/-- A place in a source, counted in code points and in bytes. -/
structure Place where
  position : Nat
  offset : Nat
  deriving DecidableEq, Repr

namespace Place

def start : Place := ⟨0, 0⟩

def advance (p : Place) (text : List Char) : Place :=
  ⟨p.position + text.length, p.offset + byteLength text⟩

def span (p : Place) (text : List Char) : Span := ⟨p.offset, byteLength text⟩

@[simp] theorem advance_nil (p : Place) : p.advance [] = p := rfl

@[simp] theorem advance_append (p : Place) (cs ds : List Char) :
    p.advance (cs ++ ds) = (p.advance cs).advance ds := by
  simp [advance, Nat.add_assoc]

end Place
end Formula
