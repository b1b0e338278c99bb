import TypedMustache.Json.Binary64

/-! Values that are read before it is known what they are for. They have to stand for
data at every depth, and words may be written in them in one more way. -/

namespace TypedMustache.Json

/-- When a value is read: as its text comes in, or out of a value that is read already. -/
inductive Access where
  | streamed
  | stored
  deriving DecidableEq, Repr

mutual

/-- Whether the value stands for data at every depth: strings that are characters,
numbers in binary64 range, and at most `levels` arrays and objects inside each other. -/
def isPlain : Nat → Json → Bool
  | _, .null => true
  | _, .bool _ => true
  | _, .number n => n.isFinite
  | _, .string t => t.isSome
  | 0, .array _ => false
  | levels + 1, .array items => arePlain levels items
  | 0, .object _ => false
  | levels + 1, .object fields => fieldsPlain levels fields

def arePlain : Nat → List Json → Bool
  | _, [] => true
  | levels, item :: rest => isPlain levels item && arePlain levels rest

def fieldsPlain : Nat → List (Text × Json) → Bool
  | _, [] => true
  | levels, (name, value) :: rest => name.isSome && isPlain levels value && fieldsPlain levels rest

end

/-- Whether nothing is said: `null` or, out of a stored value, an empty object. -/
def isVoid : Access → Json → Bool
  | _, .null => true
  | .stored, .object [] => true
  | _, _ => false

/-- One word out of an enumeration: its name, or an object with that name as its only
field and nothing under it, where `levels` more objects may be opened. -/
def toWord? (access : Access) : Nat → Json → Option String
  | _, .string t => t
  | _ + 1, .object [(name, value)] => if value.isVoid access then name else none
  | _, _ => none

end TypedMustache.Json
