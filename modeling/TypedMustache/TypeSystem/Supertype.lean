import TypedMustache.TypeSystem.Basic
import TypedMustache.JavaType.Substitution

/-! A type seen as one of its supertypes, with its own arguments put in place of its
parameters on the way up, and a member's type as seen from a receiver. -/

namespace TypedMustache.TypeSystem

variable (ts : TypeSystem)

/-- A generic type that is used without arguments. -/
def isRaw : JavaType → Bool
  | .declared name => !(ts.parameters name).isEmpty
  | _ => false

/-- The direct supertypes of a use of `name` with the given arguments. -/
def supertypesOf (name : String) (args : List JavaType) : List JavaType :=
  (ts.directSupertypes name).map (Substitution.ofParameters (ts.parameterNames name) args).apply

/-- The parameterization of `target` that a type inherits through fewer than `steps`
supertypes. Above a raw type all is erased. -/
def supertypeWithin (target : String) : Nat → JavaType → Option JavaType
  | 0, _ => none
  | steps + 1, ty =>
    match ty.baseName? with
    | none => none
    | some name =>
      if name = target then some ty
      else
        ((ts.supertypesOf name ty.args).findSome? (supertypeWithin target steps)).map fun found =>
          if ts.isRaw ty then found.erasure else found

/-- Chains of more supertypes than this are not followed. -/
def maxChain : Nat := 64

/-- The parameterization of `target` that a type inherits. -/
def asSupertype (ty : JavaType) (target : String) : Option JavaType :=
  ts.supertypeWithin target (maxChain + 1) ty

/-- The type of a member on a receiver. A raw receiver shows the erasure. -/
def asMemberOf (receiver : JavaType) (m : Member) : JavaType :=
  match ts.asSupertype receiver m.declaringType, ts.parameters m.declaringType with
  | none, _ => m.type
  | some _, [] => m.type
  | some (.generic _ args), parameters =>
    (Substitution.ofParameters (parameters.map TypeParameter.name) args).apply m.type
  | some _, parameters =>
    ((Substitution.ofParameters (parameters.map TypeParameter.name)
      (parameters.map TypeParameter.firstBound)).apply m.type).erasure

end TypedMustache.TypeSystem
