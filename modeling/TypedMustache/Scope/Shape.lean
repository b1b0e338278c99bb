import TypedMustache.Model.Basic

/-! How a value behaves when a scope is entered through it. -/

namespace TypedMustache

inductive Shape where
  /-- Opens no block. -/
  | plain
  /-- A truth value, boxed when it is `nullable`. -/
  | boolean (nullable : Bool)
  | iteration (element : JavaType)
  | array (element : JavaType)
  | optional (element : JavaType)
  /-- Any other reference, there unless it is null. -/
  | nullable
  deriving DecidableEq

def Shape.label : Shape → String
  | .plain => "plain"
  | .boolean _ => "boolean"
  | .iteration _ => "iteration"
  | .array _ => "array"
  | .optional _ => "optional"
  | .nullable => "nullable"

/-- The way in which a scope is entered: over a variable, as a leading step of a dotted
name, as a section, or as an inverted section or a leading step of one. -/
inductive Entry where
  | plain
  | guard
  | positive
  | inverted
  | invertedGuard
  deriving DecidableEq, Repr

namespace Entry

def isInverted : Entry → Bool
  | .inverted => true
  | .invertedGuard => true
  | _ => false

/-- Whether the scope is a leading step, whose markers belong to the name's last one. -/
def isStep : Entry → Bool
  | .guard => true
  | .invertedGuard => true
  | _ => false

end Entry

namespace Model

variable (m : Model)

/-- The shape of a value of the given type in a section. Numbers open none. -/
def sectionShape (type : JavaType) : Except TypeError Shape := do
  let ty ← effectiveType type
  match ty.component? with
  | some element => return .array element
  | none =>
    match ← m.require ty with
    | .scalar kind _ => if kind.isNumeric then throw (.notSection ty) else return .boolean false
    | .object (.boxed .boolean) => return .boolean true
    | .object .iterable => return .iteration (m.iterableElement ty)
    | .object .optional => return .optional (m.optionalElement ty)
    | .object _ => return .nullable
    | .renderable => return .nullable

/-- The shape of a leading step, which is entered unless it is null. -/
def guardShape (type : JavaType) : Except TypeError Shape :=
  (effectiveType type).map fun ty => if ty.isPrimitive then .plain else .nullable

def shape (type : JavaType) : Entry → Except TypeError Shape
  | .plain => .ok .plain
  | .guard => guardShape type
  | .positive => m.sectionShape type
  | .inverted => m.sectionShape type
  | .invertedGuard => m.sectionShape type

end Model

end TypedMustache
