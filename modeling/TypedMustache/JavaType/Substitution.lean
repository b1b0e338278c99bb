import TypedMustache.JavaType.Basic

/-! Replacing type variables by types, as when the parameters of a declaration take the
arguments of one of its uses. -/

namespace TypedMustache

/-- Types for type variables. An earlier entry hides a later one of the same name. -/
structure Substitution where
  entries : List (String × JavaType) := []

namespace Substitution

def get? (s : Substitution) (name : String) : Option JavaType := s.entries.lookup name

def insert (s : Substitution) (name : String) (ty : JavaType) : Substitution :=
  ⟨(name, ty) :: s.entries⟩

def isEmpty (s : Substitution) : Bool := s.entries.isEmpty

/-- Pairs parameters with arguments by position. Of two parameters of one name the
later counts, and what is left over on either side is dropped. -/
def ofParameters (names : List String) (args : List JavaType) : Substitution :=
  (names.zip args).foldl (fun s pair => s.insert pair.1 pair.2) {}

/-- An array of `element`, which takes in the dimensions of an element that is an array. -/
def arrayOver : JavaType → Nat → JavaType
  | .array inner n, dimensions => .array inner (JavaType.addDimensions dimensions n)
  | element, dimensions => .array element dimensions

mutual

/-- The type with its variables replaced. The base of a parameterized type is no
variable and stays. -/
def apply (s : Substitution) : JavaType → JavaType
  | .declared name => (s.get? name).getD (.declared name)
  | .generic base args => .generic base (applyAll s args)
  | .array element dimensions => arrayOver (apply s element) dimensions
  | .bounded side bound => .bounded side (apply s bound)
  | ty => ty

def applyAll (s : Substitution) : List JavaType → List JavaType
  | [] => []
  | a :: as => apply s a :: applyAll s as

end

end Substitution

end TypedMustache
