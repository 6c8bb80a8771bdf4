import Formula.Json

/-!
The scalars that expressions compute with, the categories they are reported under, and their
written forms.
-/

namespace Formula

inductive Value where
  | bool (b : Bool)
  | integer (n : Int64)
  | float (x : Float)
  | text (s : String)
  deriving BEq, DecidableEq, Repr

/-- The reported type of a node; `null` means that it has not been evaluated. -/
inductive Category where
  | null
  | bool
  | integer
  | float
  | text
  deriving DecidableEq, Repr

namespace Category

def isNumber : Category → Bool
  | .integer | .float => true
  | _ => false

def isText (c : Category) : Bool := c = .text

def isBool (c : Category) : Bool := c = .bool

def isNull (c : Category) : Bool := c = .null

def name : Category → String
  | .null => "Null"
  | .bool => "boolean"
  | .integer => "int"
  | .float => "float"
  | .text => "string"

end Category

namespace Value

/-- Results show floats in full, without a point where none is needed. -/
def floatLayout : Layout := ⟨.up, false, none⟩

/-- Literals show floats in full, and whole ones with a point to tell them from integers. -/
def literalLayout : Layout := ⟨.up, true, none⟩

def category : Value → Category
  | .bool _ => .bool
  | .integer _ => .integer
  | .float _ => .float
  | .text _ => .text

/-- A number as a float; an integer goes to the nearest one. -/
def toFloat? : Value → Option Float
  | .integer n => some (Float.ofInt64 n)
  | .float x => some x
  | _ => none

def boolText (b : Bool) : String := if b then "true" else "false"

def integerText (n : Int64) : String := Int.repr n.toInt

/-- The value as results show it: texts stand for themselves. -/
def display : Value → String
  | .bool b => boolText b
  | .integer n => integerText n
  | .float x => floatLayout.text x
  | .text s => s

/-- The value as literals show it: texts are quoted. -/
def literal : Value → String
  | .bool b => boolText b
  | .integer n => integerText n
  | .float x => literalLayout.text x
  | .text s => Text.quotedString s

/-- The value as JSON; a float that is no number becomes `null`. -/
def toJson : Value → Json
  | .bool b => .bool b
  | .integer n => if n < 0 then .number (.negative n) else .number (.natural n.toUInt64)
  | .float x => if x.isFinite then .number (.float x) else .null
  | .text s => .string s

@[simp] theorem category_ne_null (v : Value) : v.category ≠ .null := by
  cases v <;> simp [category]

@[simp] theorem category_bool (b : Bool) : (Value.bool b).category = .bool := rfl

@[simp] theorem category_integer (n : Int64) : (Value.integer n).category = .integer := rfl

@[simp] theorem category_float (x : Float) : (Value.float x).category = .float := rfl

@[simp] theorem category_text (s : String) : (Value.text s).category = .text := rfl

end Value
end Formula
