import TypedMustache.JavaType.Basic

/-! What a template can do with a value, found from the value's type. The registry puts
the capabilities in the order in which a type is tried against them. -/

namespace TypedMustache

/-- The primitive types with values. -/
inductive Scalar where
  | boolean
  | char
  | byte
  | short
  | int
  | long
  | float
  | double
  deriving DecidableEq, Repr

namespace Scalar

def all : List Scalar := [.boolean, .char, .byte, .short, .int, .long, .float, .double]

def keyword : Scalar → String
  | .boolean => "boolean"
  | .char => "char"
  | .byte => "byte"
  | .short => "short"
  | .int => "int"
  | .long => "long"
  | .float => "float"
  | .double => "double"

/-- The class whose objects hold one value of the type. -/
def boxedName : Scalar → String
  | .boolean => "java.lang.Boolean"
  | .char => "java.lang.Character"
  | .byte => "java.lang.Byte"
  | .short => "java.lang.Short"
  | .int => "java.lang.Integer"
  | .long => "java.lang.Long"
  | .float => "java.lang.Float"
  | .double => "java.lang.Double"

def type (s : Scalar) : JavaType := .primitive s.keyword

/-- All but `boolean`. A number opens no section. -/
def isNumeric (s : Scalar) : Bool := s != .boolean

end Scalar

/-- The part that a class plays for templates. -/
inductive Role where
  | string
  | boxed (scalar : Scalar)
  | optional
  | iterable
  | map
  /-- Any other reference. -/
  | declared
  | renderable
  | error
  | runtimeException
  deriving DecidableEq, Repr

namespace Role

/-- The class or interface that stands for the role, where `renderable` is the
configured one. -/
def className (renderable : String) : Role → String
  | .string => "java.lang.String"
  | .boxed scalar => scalar.boxedName
  | .optional => "java.util.Optional"
  | .iterable => "java.lang.Iterable"
  | .map => "java.util.Map"
  | .declared => JavaType.objectName
  | .renderable => renderable
  | .error => "java.lang.Error"
  | .runtimeException => "java.lang.RuntimeException"

/-- The roles that a type is tried for, in order. Any reference has the last one. -/
def all : List Role :=
  [.string] ++ Scalar.all.map .boxed ++ [.optional, .iterable, .map, .declared]

end Role

inductive Capability where
  | renderable
  /-- A primitive type, or the one-dimensional array of one. -/
  | scalar (kind : Scalar) (isArray : Bool)
  | object (role : Role)
  deriving DecidableEq, Repr

namespace Capability

def scalars : List Capability :=
  Scalar.all.map (.scalar · false) ++ Scalar.all.map (.scalar · true)

def objects : List Capability := Role.all.map .object

/-- All capabilities in the order in which they are tried. -/
def registry : List Capability := .renderable :: (scalars ++ objects)

/-- The type of a scalar, which only that type itself matches. -/
def scalarType (kind : Scalar) (isArray : Bool) : JavaType :=
  if isArray then kind.type.arrayOf else kind.type

end Capability

end TypedMustache
