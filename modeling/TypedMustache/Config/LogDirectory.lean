/-! Where logs go when the configuration names no directory. -/

namespace TypedMustache

/-- A path below a directory. Only a directory that is named and has no slash at its
end is given one. -/
def joinPath (directory below : String) : String :=
  if directory = "" ∨ directory.toList.getLast? = some '/' then directory ++ below
  else directory ++ "/" ++ below

/-- The log directory of a user, below the current directory when there is no home. -/
def defaultLogDirectory (home : Option String) : String :=
  joinPath (home.getD ".") ".stachec/logs"

end TypedMustache
