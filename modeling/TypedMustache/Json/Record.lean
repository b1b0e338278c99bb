import TypedMustache.Json.Basic

/-! Reading an object as a record of known fields. Fields may come in any order and
others may stand between them. -/

namespace TypedMustache.Json

/-- The fields whose names are in `known`, in the order given. Fails when a name
stands for no characters and when a known name is given twice. -/
def fieldsAmong? (known : List String) (fields : List (Text × Json)) :
    Option (List (String × Json)) := do
  let named ← fields.mapM fun field => field.1.map fun name => (name, field.2)
  let relevant := named.filter fun field => known.contains field.1
  if (relevant.map Prod.fst).Nodup then return relevant else none

def toBool? : Json → Option Bool
  | .bool b => some b
  | _ => none

/-- The characters of a string. -/
def toString? : Json → Option String
  | .string t => t
  | _ => none

end TypedMustache.Json
