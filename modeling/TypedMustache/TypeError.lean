import TypedMustache.JavaType.Printer

/-! What can be wrong with a type where a template uses it. -/

namespace TypedMustache

inductive TypeError where
  /-- A wildcard without an upper bound, where a type is needed. -/
  | unboundedWildcard (type : JavaType)
  /-- A type of no known use, such as a type variable or an undeclared name. -/
  | unresolved (type : JavaType)
  | notRenderable (type : JavaType)
  | notSection (type : JavaType)
  deriving DecidableEq

def TypeError.message : TypeError → String
  | .unboundedWildcard type => String.join ["Wildcard type without an upper bound: ", type.text]
  | .unresolved type => String.join ["Unresolved type: ", type.text]
  | .notRenderable type => String.join ["Value of type ", type.text, " can't be rendered as text"]
  | .notSection type => String.join ["Value of type ", type.text, " can't be used as a section"]

end TypedMustache
