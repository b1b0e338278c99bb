import TypedMustache.JavaType.Basic

/-! Java expressions. Each keeps the template names that led to it, outermost first. -/

namespace TypedMustache

structure Expression where
  text : String
  type : JavaType
  path : List String := []
  deriving DecidableEq

namespace Expression

/-- One name further down. -/
def member (e : Expression) (text : String) (type : JavaType) (name : String) : Expression :=
  ⟨text, type, e.path ++ [name]⟩

/-- Another expression for the same names, such as a loop variable. -/
def derive (e : Expression) (text : String) (type : JavaType) : Expression := ⟨text, type, e.path⟩

end Expression

end TypedMustache
