import TypedMustache.TypeSystem.Basic

/-! The names above a type, level by level. A round reads the supertypes of the names
that the round before it found. Each round but the last finds a name not seen before,
and only `supertypeNames` can be found, so their number bounds the rounds. -/

namespace TypedMustache.TypeSystem

variable (ts : TypeSystem)

def directSupertypeNames (name : String) : List String :=
  (ts.directSupertypes name).filterMap JavaType.baseName?

/-- The names one step above `level` that are not in `found`, in order and each once. -/
def nextLevel (found level : List String) : List String :=
  ((level.flatMap ts.directSupertypeNames).filter (!found.contains ·)).eraseDups

/-- All names in `found` or above `level`, in at most the given number of rounds. -/
def climb : Nat → List String → List String → List String
  | 0, found, _ => found
  | rounds + 1, found, level =>
    match ts.nextLevel found level with
    | [] => found
    | next => climb rounds (found ++ next) next

/-- The names above a type, nearer ones first and each once. The name itself is among
them only if it is above itself. -/
def ancestors (name : String) : List String := ts.climb ts.supertypeNames.length [] [name]

/-- The members of a name in the nearest type that declares any. -/
def membersInHierarchy (type name : String) : List Member :=
  ((type :: ts.ancestors type).findSome? fun owner =>
    match ts.membersNamed owner name with
    | [] => none
    | found => some found).getD []

end TypedMustache.TypeSystem
