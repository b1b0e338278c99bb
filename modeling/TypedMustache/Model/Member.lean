import TypedMustache.Expression
import TypedMustache.Model.Basic
import TypedMustache.Text.Uppercase

/-! The Java expression that a template name stands for on a value: an accessor method
or a field of an object, an entry of a map, or the length of an array. -/

namespace TypedMustache

/-- A character inside a Java string literal. -/
def javaStringChar : Char → List Char
  | '"' => ['\\', '"']
  | '\\' => ['\\', '\\']
  | '\n' => ['\\', 'n']
  | '\t' => ['\\', 't']
  | c => [c]

def javaStringBody (s : String) : String := String.ofList (s.toList.flatMap javaStringChar)

namespace JavaType

def void : JavaType := .primitive "void"

/-- What a method has to return to be read through its `is` name. -/
def isBoolean (ty : JavaType) : Bool :=
  ty = Scalar.boolean.type || ty = .declared Scalar.boolean.boxedName

end JavaType

/-- A way of reading a name from an object: a method that returns anything, one that
tells a truth value, or a field. -/
inductive AccessorForm where
  | get
  | is
  | plain
  | field
  deriving DecidableEq, Repr

namespace AccessorForm

/-- The forms in the order in which they are tried. -/
def all : List AccessorForm := [.get, .is, .plain, .field]

/-- The name of the member that the form reads `name` from. -/
def memberName (name : String) : AccessorForm → String
  | .get => "get" ++ Text.capitalize name
  | .is => "is" ++ Text.capitalize name
  | .plain => name
  | .field => name

/-- The text that follows the value. -/
def suffix (name : String) (form : AccessorForm) : String :=
  "." ++ form.memberName name ++ if form = .field then "" else "()"

def acceptsType : AccessorForm → JavaType → Bool
  | .get, ty => ty != .void
  | .is, ty => ty != .void && ty.isBoolean
  | .plain, ty => ty != .void
  | .field, _ => true

end AccessorForm

namespace Model

variable (m : Model)

/-- Whether a member can be read in a form, its type aside. Methods take nothing and
throw nothing that has to be declared. -/
def acceptsMember (form : AccessorForm) (d : Member) : Bool :=
  if form = .field then d.kind = .field && d.isAccessible
  else d.kind = .method && d.arity = 0 && d.isAccessible && d.throws.all m.isUnchecked

/-- The type of `name` read in a form from an object of type `ty`, whose class is
`owner`. Only the nearest type that declares a member of the form's name counts. -/
def accessorType? (owner : String) (ty : JavaType) (name : String) (form : AccessorForm) :
    Option JavaType :=
  (((m.types.membersInHierarchy owner (form.memberName name)).filter (m.acceptsMember form)).map
    (m.types.asMemberOf ty)).find? form.acceptsType

def accessor? (value : Expression) (ty : JavaType) (name : String) : Option Expression :=
  ty.baseName?.bind fun owner =>
    AccessorForm.all.findSome? fun form =>
      (m.accessorType? owner ty name form).map fun type =>
        value.member (value.text ++ form.suffix name) type name

/-- The entry of a map of type `ty` under a name. -/
def mapEntry (value : Expression) (ty : JavaType) (name : String) : Expression :=
  value.member (value.text ++ ".get(\"" ++ javaStringBody name ++ "\")") (m.typeArgument ty .map 1)
    name

/-- Reads a name from a value. Scalars, renderable values and values of unknown types
have no names. -/
def findMember (value : Expression) (name : String) : Except TypeError (Option Expression) := do
  let ty ← effectiveType value.type
  if ty.isArray then
    return if name = "length" then
      some (value.member (value.text ++ ".length") Scalar.int.type name) else none
  match ← m.resolve ty with
  | some (.object .map) => return some (m.mapEntry value ty name)
  | some (.object _) => return m.accessor? value ty name
  | _ => return none

/-- The template's data. -/
def rootExpression (type : JavaType) : Expression := ⟨m.config.dataName, type, []⟩

end Model

end TypedMustache
