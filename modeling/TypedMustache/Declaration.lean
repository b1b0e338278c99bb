import TypedMustache.JavaType.Basic

/-! Declarations of types and members. Types inside a declaration are in terms of the
declaring type's parameters. -/

namespace TypedMustache

inductive TypeKind where
  | ordinary
  | interface
  | enumeration
  | annotationType
  deriving DecidableEq, Repr

/-- A type parameter with its upper bounds. -/
structure TypeParameter where
  name : String
  bounds : List JavaType := []
  deriving DecidableEq

namespace TypeParameter

/-- The type that stands for the parameter where its declaration is used raw. -/
def firstBound (p : TypeParameter) : JavaType := p.bounds.headD .object

end TypeParameter

structure TypeInfo where
  name : String
  kind : TypeKind
  modifiers : List String := []
  parameters : List TypeParameter := []
  deriving DecidableEq

inductive MemberKind where
  | field
  | method
  | constructor
  deriving DecidableEq, Repr

structure Member where
  name : String
  kind : MemberKind
  declaringType : String
  /-- The type of a field, or what a method returns. -/
  type : JavaType
  /-- Names and types of a method's parameters. Fields have none. -/
  parameters : Option (List (String × JavaType)) := none
  modifiers : List String := []
  throws : List JavaType := []
  deriving DecidableEq

namespace Member

def qualifiedName (m : Member) : String := m.declaringType ++ "#" ++ m.name

def isStatic (m : Member) : Bool := m.modifiers.contains "static"

def isPrivate (m : Member) : Bool := m.modifiers.contains "private"

def arity (m : Member) : Nat := (m.parameters.getD []).length

/-- Whether a template may read the member from a value. -/
def isAccessible (m : Member) : Bool := !m.isStatic && !m.isPrivate

end Member

end TypedMustache
