import TypedMustache.JavaType.Basic
import TypedMustache.Json.Parser
import TypedMustache.Json.Record
import TypedMustache.Json.Stored

/-! The JSON form of a type: an object with its `kind` and, for all kinds but one, its
`data`. Reading accepts the two fields in either order, other fields beside them, and
an array of the two. Inside data that comes before its kind there are more ways to write
a kind. -/

namespace TypedMustache.JavaType

open Json (Access fieldsAmong? record)

/-- The kinds of type that a document tells apart. -/
inductive Kind where
  | raw
  | id
  | generic
  | array
  | wildcard
  | unknown
  deriving DecidableEq, Repr

namespace Kind

def all : List Kind := [.raw, .id, .generic, .array, .wildcard, .unknown]

def name : Kind → String
  | .raw => "Raw"
  | .id => "Id"
  | .generic => "Generic"
  | .array => "Array"
  | .wildcard => "Wildcard"
  | .unknown => "Unknown"

def ofName? (name : String) : Option Kind := all.find? fun kind => kind.name = name

/-- The kind in a `kind` field, where `levels` more objects may be opened. -/
def ofField? (access : Access) (levels : Nat) (j : Json) : Option Kind :=
  (j.toWord? access levels).bind ofName?

/-- The kind at the head of an array. Out of a stored array its place in `all` will do. -/
def ofHead? : Access → Json → Option Kind
  | _, .string name => name.bind ofName?
  | .stored, .number place => place.toNat?.bind fun i => all[i]?
  | _, _ => none

end Kind

/-! ### Writing -/

def tagged (kind : Kind) (data : Json) : Json := record [("kind", .text kind.name), ("data", data)]

mutual

def toJson : JavaType → Json
  | .primitive keyword => tagged .raw (.text keyword)
  | .declared name => tagged .id (.text name)
  | .generic base args =>
    tagged .generic (record [("base", toJson base), ("args", .array (toJsons args))])
  | .array element dimensions =>
    tagged .array (record [("element", toJson element), ("dimensions", .nat dimensions)])
  | .wildcard side =>
    tagged .wildcard (record [("bound", .null), ("is_upper_bound", .bool (side = .upper))])
  | .bounded side bound =>
    tagged .wildcard (record [("bound", toJson bound), ("is_upper_bound", .bool (side = .upper))])
  | .unknown => record [("kind", .text Kind.unknown.name)]

def toJsons : List JavaType → List Json
  | [] => []
  | a :: as => toJson a :: toJsons as

end

/-! ### Reading -/

/-- How many arrays and objects may stand inside each other. -/
def nestingLimit : Nat := 127

/-- A dimension count fits in 64 bits. -/
def dimensions? : Json → Option Nat
  | .number n => n.toNat?.filter (· < UInt64.size)
  | _ => none

/-- A value taken apart into its kind and its data, which is read by `access`. -/
structure Tagged where
  kind : Kind
  data : Option Json
  access : Access

/-- Takes a value apart, where `levels` more arrays and objects may be opened. Data that
comes before its kind is stored until the kind is known, so all of it has to be plain. -/
def tagged? (access : Access) (levels : Nat) : Json → Option Tagged
  | .array [kind, data] => (Kind.ofHead? access kind).map (⟨·, some data, access⟩)
  | .object fields => do
    match ← fieldsAmong? ["kind", "data"] fields with
    | [("kind", kind)] => (Kind.ofField? access levels kind).map (⟨·, none, access⟩)
    | [("kind", kind), ("data", data)] =>
      (Kind.ofField? access levels kind).map (⟨·, some data, access⟩)
    | [("data", data), ("kind", kind)] =>
      if data.isPlain levels then
        (Kind.ofField? access levels kind).map (⟨·, some data, .stored⟩)
      else none
    | _ => none
  | _ => none

def sideOf (isUpper : Bool) : Side := if isUpper then .upper else .lower

mutual

/-- The type that a value stands for, where `levels` arrays and objects may be opened. -/
def ofJson? (access : Access) : Nat → Json → Option JavaType
  | 0, _ => none
  | levels + 1, json =>
    (tagged? access levels json).bind fun found =>
      ofData? found.access levels found.kind found.data

/-- The type of a kind that has the given data. -/
def ofData? (access : Access) : Nat → Kind → Option Json → Option JavaType
  | _, .raw, some (.string keyword) => keyword.map .primitive
  | _, .id, some (.string name) => name.map .declared
  | _, .unknown, none => some .unknown
  | _, .unknown, some .null => some .unknown
  | levels + 1, .generic, some (.object fields) => do
    let fields ← fieldsAmong? ["base", "args"] fields
    let base ← ofJson? access levels (← fields.lookup "base")
    let args ← ofItems? access levels (← fields.lookup "args")
    return .generic base args
  | levels + 1, .array, some (.object fields) => do
    let fields ← fieldsAmong? ["element", "dimensions"] fields
    let element ← ofJson? access levels (← fields.lookup "element")
    let dimensions ← dimensions? (← fields.lookup "dimensions")
    return .array element dimensions
  | levels + 1, .wildcard, some (.object fields) => do
    let fields ← fieldsAmong? ["bound", "is_upper_bound"] fields
    let side := sideOf (← (← fields.lookup "is_upper_bound").toBool?)
    match fields.lookup "bound" with
    | none => some (.wildcard side)
    | some .null => some (.wildcard side)
    | some bound => (ofJson? access levels bound).map (.bounded side)
  | _, _, _ => none

def ofItems? (access : Access) : Nat → Json → Option (List JavaType)
  | levels + 1, .array items => items.mapM (ofJson? access levels)
  | _, _ => none

end

/-- Reads the JSON text of a type. -/
def parse? (s : String) : Option JavaType :=
  (Json.parse? s).bind (ofJson? .streamed nestingLimit)

end TypedMustache.JavaType
