import TypedMustache.TypeSystem.Ancestors
import TypedMustache.TypeSystem.Supertype

/-! Subtyping. A goal of the judgement comes down to further goals that all have to be
met: one for the components of two arrays, one for each argument of two parameterized
types, where wildcards contain what lies on the right side of their bounds. A
contravariant argument turns a goal around, and there are declarations for which that
goes on forever, so goals are nested up to some depth and may stay open there. -/

namespace TypedMustache.TypeSystem

/-- Widening from one primitive type to a larger one. -/
def widens (small large : String) : Bool :=
  match small with
  | "byte" => ["short", "int", "long", "float", "double"].contains large
  | "short" => ["int", "long", "float", "double"].contains large
  | "char" => ["int", "long", "float", "double"].contains large
  | "int" => ["long", "float", "double"].contains large
  | "long" => ["float", "double"].contains large
  | "float" => large = "double"
  | _ => false

/-- What every array is besides an object. -/
def arrayInterfaces : List String := ["java.lang.Cloneable", "java.io.Serializable"]

/-- A question of the judgement. -/
inductive Goal where
  /-- Whether a type is a subtype of another. -/
  | subtype (a b : JavaType)
  /-- Whether a type argument lies within another. -/
  | within (arg bound : JavaType)
  deriving DecidableEq

/-- A goal that is decided on the spot: it leaves no goals or cannot be met. -/
def settled (holds : Bool) : Option (List Goal) := if holds then some [] else none

/-- What it takes for a type argument to lie within another. -/
def withinPremises (arg : JavaType) : JavaType → Option (List Goal)
  | .wildcard _ => some []
  | .bounded .upper bound => some [.subtype arg bound]
  | .bounded .lower bound =>
    match arg with
    | .bounded .lower lower => some [.subtype bound lower]
    | .bounded .upper _ => none
    | .wildcard _ => none
    | arg => some [.subtype bound arg]
  | other => settled (arg.sameType other)

/-- What it takes for an array to be a subtype. -/
def arrayPremises (a : JavaType) : JavaType → Option (List Goal)
  | .declared name => settled (name = JavaType.objectName || arrayInterfaces.contains name)
  | .array element dimensions =>
    match a.component?, (JavaType.array element dimensions).component? with
    | some x, some y =>
      if x.isPrimitive || y.isPrimitive then settled (x = y) else some [.subtype x y]
    | _, _ => none
  | _ => none

variable (ts : TypeSystem)

/-- Whether the type is a declared one that the type system can describe. -/
def isKnown (ty : JavaType) : Bool :=
  match ty.baseName? with
  | some name => name = JavaType.objectName || (ts.typeInfo? name).isSome
  | none => false

/-- Whether `name` is `target` or below it. -/
def inherits (name target : String) : Bool := name = target || (ts.ancestors name).contains target

/-- What it takes for a declared or parameterized type to be a subtype. A raw type is
below those parameterizations only that leave every argument open. -/
def declaredPremises (a : JavaType) : JavaType → Option (List Goal)
  | .declared target =>
    if target = JavaType.objectName then settled (ts.isKnown a)
    else settled (a.baseName?.any fun name => ts.inherits name target)
  | .generic base args =>
    match base.baseName?.bind (ts.asSupertype a) with
    | none => none
    | some (.generic _ own) =>
      if own.length = args.length then some (List.zipWith Goal.within own args) else none
    | some _ => settled (args.all JavaType.isUnbounded)
  | _ => none

/-- What it takes for a type to be a subtype of another. -/
def subtypePremises (a b : JavaType) : Option (List Goal) :=
  if a.sameType b then some []
  else if b = .unknown then none
  else
    match a with
    | .unknown => none
    | .wildcard _ => settled (b = .object)
    | .bounded .lower _ => settled (b = .object)
    | .bounded .upper bound => some [.subtype bound b]
    | .primitive small =>
      match b with
      | .primitive large => settled (widens small large)
      | _ => none
    | .array _ _ => arrayPremises a b
    | .declared _ => ts.declaredPremises a b
    | .generic _ _ => ts.declaredPremises a b

/-- The goals that a goal comes down to, or nothing if it cannot be met. -/
def premises : Goal → Option (List Goal)
  | .subtype a b => ts.subtypePremises a b
  | .within arg bound => withinPremises arg bound

/-- Whether a goal can be met, if that is settled with goals that are nested to a given depth
at most. Premises are taken up in their order until one cannot be met. -/
def settle? : Nat → Goal → Option Bool
  | 0, _ => none
  | depth + 1, goal =>
    match ts.premises goal with
    | none => some false
    | some premises => premises.allM (settle? depth)

/-- Deep enough to take both types apart, and deeper than any stack for what supertypes bring in. -/
def depthLimit (a b : JavaType) : Nat := 2 * (a.size + b.size) + 1000000000

/-- Subtyping. A question that stays open is answered with no. -/
def isSubtype (a b : JavaType) : Bool := ts.settle? (depthLimit a b) (.subtype a b) == some true

end TypedMustache.TypeSystem
