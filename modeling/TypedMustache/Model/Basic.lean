import TypedMustache.Config.Basic
import TypedMustache.Model.Capability
import TypedMustache.TypeError
import TypedMustache.TypeSystem.Subtyping

/-! What a compilation asks about types: a type system and a configuration, and on them
the classification of types by capability. -/

namespace TypedMustache

structure Model where
  types : TypeSystem
  config : Config := {}

namespace Model

variable (m : Model)

def className (role : Role) : String := role.className m.config.renderableInterface

/-- Scalars match by identity and objects by assignability. The renderable interface
matches with any type arguments. -/
def hasCapability (ty : JavaType) : Capability → Bool
  | .renderable => m.types.isSubtype ty (m.types.genericType (m.className .renderable))
  | .scalar kind isArray => ty.sameType (Capability.scalarType kind isArray)
  | .object role => m.types.isSubtype ty (.declared (m.className role))

/-- The type with wildcards replaced by their upper bounds. -/
def effectiveType : JavaType → Except TypeError JavaType
  | .bounded .upper bound => effectiveType bound
  | .bounded .lower bound => .error (.unboundedWildcard (.bounded .lower bound))
  | .wildcard side => .error (.unboundedWildcard (.wildcard side))
  | ty => .ok ty

/-- The first capability that a type has. There is none for a type variable or a name
that the type system has never seen. -/
def resolve (ty : JavaType) : Except TypeError (Option Capability) :=
  (effectiveType ty).map fun ty => Capability.registry.find? (m.hasCapability ty)

/-- The capability of a type that has to have one. -/
def require (ty : JavaType) : Except TypeError Capability := do
  match ← m.resolve ty with
  | some capability => return capability
  | none => throw (.unresolved ty)

/-- Whether a method may throw the exception without declaring it. -/
def isUnchecked (ty : JavaType) : Bool :=
  [Role.error, Role.runtimeException].any fun role =>
    m.types.isSubtype ty (.declared (m.className role))

/-- The argument at `index` of the parameterization of `role` that a type inherits. A
wildcard is read as its upper bound, and all that says nothing as an object. -/
def typeArgument (ty : JavaType) (role : Role) (index : Nat) : JavaType :=
  let found := (m.types.asSupertype ty (m.className role)).bind fun view => view.args[index]?
  match found with
  | none => .object
  | some arg => if arg.isWildcard then arg.upperBound?.getD .object else arg

/-- The type of what a loop over the value meets. -/
def iterableElement (ty : JavaType) : JavaType := m.typeArgument ty .iterable 0

/-- The type of what an optional value holds. -/
def optionalElement (ty : JavaType) : JavaType := m.typeArgument ty .optional 0

end Model

end TypedMustache
