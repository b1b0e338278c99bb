import TypedMustache.Declaration

/-! What a compilation knows about declared types: their parameters, direct supertypes
and members, by name. Supertypes are in terms of the subtype's own parameters. -/

namespace TypedMustache

structure TypeSystem where
  typeInfo? : String → Option TypeInfo
  superclass? : String → Option JavaType
  interfaces : String → List JavaType
  members : String → List Member
  /-- Every name that is a direct supertype of something, so that there are finitely many. -/
  supertypeNames : List String
  mem_supertypeNames : ∀ name, ∀ ty ∈ (superclass? name).toList ++ interfaces name,
    ∀ base, ty.baseName? = some base → base ∈ supertypeNames

namespace TypeSystem

/-- The type system that knows nothing. -/
def empty : TypeSystem where
  typeInfo? _ := none
  superclass? _ := none
  interfaces _ := []
  members _ := []
  supertypeNames := []
  mem_supertypeNames := by simp

/-- Replaces what is known of one type's own declaration. -/
def redeclare (ts : TypeSystem) (info : TypeInfo) : TypeSystem :=
  { ts with typeInfo? := fun name => if name = info.name then some info else ts.typeInfo? name }

def parameters (ts : TypeSystem) (name : String) : List TypeParameter :=
  ((ts.typeInfo? name).map TypeInfo.parameters).getD []

def parameterNames (ts : TypeSystem) (name : String) : List String :=
  (ts.parameters name).map TypeParameter.name

/-- The superclass, and then the interfaces in the order of their declaration. -/
def directSupertypes (ts : TypeSystem) (name : String) : List JavaType :=
  (ts.superclass? name).toList ++ ts.interfaces name

def membersNamed (ts : TypeSystem) (type name : String) : List Member :=
  (ts.members type).filter (·.name = name)

/-- The declared type with an unbounded wildcard for every parameter. -/
def genericType (ts : TypeSystem) (name : String) : JavaType :=
  JavaType.declaredWith name ((ts.parameters name).map fun _ => .wildcard .upper)

end TypeSystem

end TypedMustache
