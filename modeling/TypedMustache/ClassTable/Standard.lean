import TypedMustache.ClassTable.Basic

/-! The part of the Java library that templates commonly reach. -/

namespace TypedMustache.ClassTable

open JavaType (applied declared primitive)

def stringName : String := "java.lang.String"

/-- The boxed number types, which extend `java.lang.Number`. -/
def boxedNumbers : List String :=
  ["java.lang.Byte", "java.lang.Short", "java.lang.Integer", "java.lang.Long", "java.lang.Float",
    "java.lang.Double"]

/-- Text and boxed values. -/
def withValues (t : ClassTable) (renderable : String) : ClassTable :=
  let base := (t.addClass JavaType.objectName).addRenderable renderable
    |>.addInterface "java.lang.CharSequence"
    |>.addInterface "java.lang.Cloneable"
    |>.addInterface "java.io.Serializable"
    |>.addClass stringName
    |>.implement stringName (declared "java.lang.CharSequence")
    |>.implement stringName (declared "java.io.Serializable")
    |>.addMethod stringName "length" (primitive "int")
    |>.addMethod stringName "isEmpty" (primitive "boolean")
    |>.addClass "java.lang.Number"
    |>.addClass "java.lang.Boolean"
    |>.addClass "java.lang.Character"
  boxedNumbers.foldl (fun t name => t.addClass name (some (declared "java.lang.Number"))) base

/-- Collections, maps and optional values. -/
def withContainers (t : ClassTable) : ClassTable :=
  t.addInterface "java.lang.Iterable" ["T"]
    |>.addInterface "java.util.Collection" ["E"]
    |>.implement "java.util.Collection" (applied "java.lang.Iterable" [declared "E"])
    |>.addMethod "java.util.Collection" "size" (primitive "int")
    |>.addMethod "java.util.Collection" "isEmpty" (primitive "boolean")
    |>.addInterface "java.util.List" ["E"]
    |>.implement "java.util.List" (applied "java.util.Collection" [declared "E"])
    |>.addClass "java.util.ArrayList" none ["E"]
    |>.implement "java.util.ArrayList" (applied "java.util.List" [declared "E"])
    |>.addInterface "java.util.Map" ["K", "V"]
    |>.addMethod "java.util.Map" "size" (primitive "int")
    |>.addMethod "java.util.Map" "isEmpty" (primitive "boolean")
    |>.addClass "java.util.HashMap" none ["K", "V"]
    |>.implement "java.util.HashMap" (applied "java.util.Map" [declared "K", declared "V"])
    |>.addClass "java.util.Optional" none ["T"]
    |>.addMethod "java.util.Optional" "isPresent" (primitive "boolean")
    |>.addMethod "java.util.Optional" "get" (declared "T")

def withThrowables (t : ClassTable) : ClassTable :=
  t.addClass "java.lang.Throwable"
    |>.addMethod "java.lang.Throwable" "getMessage" (declared stringName)
    |>.addClass "java.lang.Exception" (some (declared "java.lang.Throwable"))
    |>.addClass "java.lang.RuntimeException" (some (declared "java.lang.Exception"))
    |>.addClass "java.lang.Error" (some (declared "java.lang.Throwable"))
    |>.addClass "java.io.IOException" (some (declared "java.lang.Exception"))

/-- The library types, with a renderable interface among them. -/
def standard (renderable : String) : ClassTable :=
  ((({} : ClassTable).withValues renderable).withContainers).withThrowables

end TypedMustache.ClassTable
