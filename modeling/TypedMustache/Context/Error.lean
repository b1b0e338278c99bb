import TypedMustache.Context.Link
import TypedMustache.Context.Path

/-! Why a template tag cannot be compiled. -/

namespace TypedMustache

inductive ContextError where
  /-- No scope has the name. The type is that of the innermost current value. -/
  | fieldNotFound (name : String) (scopeType : JavaType)
  | currentSectionInverted
  | currentSectionParent
  | illegalLink (link : Link)
  /-- A value on the way to the name has no usable type. -/
  | invalidField (name : String) (cause : TypeError)
  | unrenderable (expression : String) (cause : TypeError)
  | unenterable (expression : String) (cause : TypeError)
  | invalidRoot (cause : TypeError)
  /-- A path turned out to have no names. -/
  | internal (path : String) (empty : Path.segments path = [])
  deriving DecidableEq

namespace ContextError

def message : ContextError → String
  | .fieldNotFound name scopeType =>
    String.join
      ["Field not found in current context: '", name, "' (scope type ", scopeType.text, ")"]
  | .currentSectionInverted => "Current section can't be inverted"
  | .currentSectionParent => "Current section can't be parent"
  | .illegalLink link => String.join ["Link kind ", link.label, " is not allowed at a lookup step"]
  | .invalidField name _ => String.join ["Can't use '", name, "' field for rendering"]
  | .unrenderable expression _ => String.join ["Unable to render field '", expression, "'"]
  | .unenterable expression _ => String.join ["Unable to enter section '", expression, "'"]
  | .invalidRoot _ => "Invalid root data type"
  | .internal path _ => String.join ["Internal error: empty path '", path, "'"]

/-- The type error behind the failure. -/
def cause? : ContextError → Option TypeError
  | .invalidField _ cause => some cause
  | .unrenderable _ cause => some cause
  | .unenterable _ cause => some cause
  | .invalidRoot cause => some cause
  | _ => none

end ContextError

end TypedMustache
