import Formula.Json.Reader
import Formula.Decimal.Numeral
import Formula.Value

/-!
What a caller may bind to a variable, and the scalar that each such thing stands for.
-/

namespace Formula

inductive Parameter where
  | value (v : Value)
  | bool (b : Bool)
  | integer (n : Int64)
  | natural (n : UInt64)
  | single (x : Float32)
  | double (x : Float)
  | text (s : String)
  | number (n : Json.Number)
  | json (j : Json)

namespace Json

/-- The integer of sixty-four bits that a number is stored as, or would fit. -/
def Number.toInt64? : Number → Option Int64
  | .natural n => if n.toNat < Nat.pow 2 63 then some (Int64.ofNat n.toNat) else none
  | .negative n => some n
  | .float _ => none

def Number.toFloat : Number → Float
  | .natural n => Float.nearest false n.toNat 1
  | .negative n => Float.ofInt64 n
  | .float x => x

/-- A number is an integer if it is stored as one of sixty-four bits, and a float otherwise. -/
def Number.normalize (n : Number) : Value :=
  match n.toInt64? with
  | some n => .integer n
  | none => .float n.toFloat

/-- The scalar that a JSON value stands for; `null` and containers stand for none. -/
def normalize? : Json → Option Value
  | .bool b => some (.bool b)
  | .number n => some n.normalize
  | .string s => some (.text s)
  | .null | .array _ | .object _ => none

end Json

namespace Parameter

/-- The scalar that a parameter stands for. A natural number too large for an integer becomes the
nearest float. -/
def normalize? : Parameter → Option Value
  | .value v => some v
  | .bool b => some (.bool b)
  | .integer n => some (.integer n)
  | .natural n => some (Json.Number.natural n).normalize
  | .single x => some (.float x.toFloat)
  | .double x => some (.float x)
  | .text s => some (.text s)
  | .number n => some n.normalize
  | .json j => j.normalize?

end Parameter

/-- The bindings of an evaluation: names with their parameters, a later pair replacing an earlier
one of the same name. -/
structure Bindings where
  pairs : List (String × Parameter)

namespace Bindings

def empty : Bindings := ⟨[]⟩

def ofMembers (members : List (String × Json)) : Bindings :=
  ⟨members.map fun (name, j) => (name, .json j)⟩

def append (b : Bindings) (pairs : List (String × Parameter)) : Bindings := ⟨b.pairs ++ pairs⟩

def find? (b : Bindings) (name : String) : Option Parameter :=
  (b.pairs.reverse.find? fun pair => pair.1 = name).map (·.2)

@[simp] theorem find?_empty (name : String) : empty.find? name = none := rfl

end Bindings
end Formula
