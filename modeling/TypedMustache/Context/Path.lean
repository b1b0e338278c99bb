/-! Dotted names. -/

namespace TypedMustache.Path

/-- The name before the first dot, and the names after it. -/
def cut : List Char → List Char × List (List Char)
  | [] => ([], [])
  | c :: rest =>
    let (first, later) := cut rest
    if c = '.' then ([], first :: later) else (c :: first, later)

/-- The first name of a path and the later ones. Names may be empty. -/
def names (path : String) : String × List String :=
  let (first, later) := cut path.toList
  (String.ofList first, later.map String.ofList)

/-- All names of a path, in their order. -/
def segments (path : String) : List String := (names path).1 :: (names path).2

/-- The path that names the current value. -/
def current : String := "."

end TypedMustache.Path
