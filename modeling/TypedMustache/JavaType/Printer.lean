import TypedMustache.JavaType.Basic

/-! The text of a type in Java source. -/

namespace TypedMustache.JavaType

mutual

def text : JavaType → String
  | .primitive keyword => keyword
  | .declared name => name
  | .generic base args => String.join [text base, "<", ", ".intercalate (texts args), ">"]
  | .array element dimensions => text element ++ String.join (List.replicate dimensions "[]")
  | .wildcard _ => "?"
  | .bounded .upper bound => String.join ["? extends ", text bound]
  | .bounded .lower bound => String.join ["? super ", text bound]
  | .unknown => "<unknown>"

def texts : List JavaType → List String
  | [] => []
  | a :: as => text a :: texts as

end

end TypedMustache.JavaType
