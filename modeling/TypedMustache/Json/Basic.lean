/-! JSON values as they are written: a number keeps its literal's decimal value, a
string keeps whether its escapes stand for characters at all, and an object keeps
its fields in order, repetitions included. -/

namespace TypedMustache

/-- The characters of a string literal. There are none when an escape leaves half
of a surrogate pair. -/
abbrev Json.Text := Option String

/-- A number literal of value `±coefficient · 10 ^ exponent`. It is integral when it
was written with neither a fraction nor an exponent. -/
structure Json.Number where
  negative : Bool := false
  coefficient : Nat
  exponent : Int := 0
  integral : Bool := true
  deriving DecidableEq, Repr

inductive Json where
  | null
  | bool (value : Bool)
  | number (value : Json.Number)
  | string (text : Json.Text)
  | array (items : List Json)
  | object (fields : List (Json.Text × Json))
  deriving Inhabited

namespace Json

namespace Number

def ofNat (n : Nat) : Number := { coefficient := n }

/-- The value of a literal of plain digits. A sign is not allowed, not even on zero. -/
def toNat? (n : Number) : Option Nat :=
  if n.integral && !n.negative then some n.coefficient else none

end Number

/-- A string of known characters. -/
def text (s : String) : Json := .string (some s)

def nat (n : Nat) : Json := .number (.ofNat n)

/-- An object of known names. -/
def record (fields : List (String × Json)) : Json :=
  .object (fields.map fun field => (some field.1, field.2))

def texts (names : List String) : Json := .array (names.map text)

/-- The value if there is one, else `null`. -/
def option {α : Type} (encode : α → Json) : Option α → Json
  | none => .null
  | some a => encode a

end Json

end TypedMustache
