import TypedMustache.Model.Member
import TypedMustache.Scope.Shape

/-! Lexical scopes. A scope is entered with a value and has a current value, which its
names are read from: inside a loop that is the loop variable. Names that the current
value does not have are looked for in the enclosing scopes. -/

namespace TypedMustache

/-- `same` stands for the scope that it encloses and opens nothing. The shape of a
nested scope is an error if its value cannot be entered that way. -/
inductive Scope where
  | root (data : Expression)
  | same (enclosing : Scope)
  | nested (entry : Entry) (value : Expression) (shape : Except TypeError Shape) (enclosing : Scope)

namespace Scope

def enclosing? : Scope → Option Scope
  | .root _ => none
  | .same enclosing => some enclosing
  | .nested _ _ _ enclosing => some enclosing

/-- The number of scopes entered since the root. -/
def depth : Scope → Nat
  | .root _ => 0
  | .same enclosing => depth enclosing
  | .nested _ _ _ enclosing => depth enclosing + 1

/-- The name of the loop variable of a scope at a depth. -/
def loopVariable (depth : Nat) : String := "element" ++ toString depth

/-- What stands for the value inside its block. -/
def rebind (value : Expression) (depth : Nat) : Except TypeError Shape → Expression
  | .ok (.iteration element) => value.derive (loopVariable depth) element
  | .ok (.array element) => value.derive (loopVariable depth) element
  | .ok (.optional element) => value.derive (value.text ++ ".get()") element
  | _ => value

/-- The value that names are read from. An inverted scope keeps the one it was entered with. -/
def current : Scope → Expression
  | .root data => data
  | .same enclosing => current enclosing
  | .nested entry value shape enclosing =>
    if entry.isInverted then value else rebind value (enclosing.depth + 1) shape

/-- The value that the scope was entered with. -/
def value : Scope → Expression
  | .root data => data
  | .same enclosing => enclosing.current
  | .nested _ value _ _ => value

def shape : Scope → Except TypeError Shape
  | .root _ => .ok .plain
  | .same _ => .ok .plain
  | .nested _ _ shape _ => shape

/-- Whether the scope is a leading step of a dotted name. -/
def isStep : Scope → Bool
  | .nested entry _ _ _ => entry.isStep
  | _ => false

def isInverted : Scope → Bool
  | .nested entry _ _ _ => entry.isInverted
  | _ => false

def variantName : Scope → String
  | .root _ => "Root"
  | .same _ => "Owned"
  | .nested entry _ _ _ => if entry.isInverted then "Inverted" else "Owned"

/-- A short name for comments, such as `Owned iteration`. -/
def description (s : Scope) : String :=
  s.variantName ++ " " ++
    match s.shape with
    | .ok shape => shape.label
    | .error _ => "invalid"

/-- Enters a value from a scope. -/
def enter (s : Scope) (m : Model) (entry : Entry) (value : Expression) : Scope :=
  .nested entry value (m.shape value.type entry) s

/-- The scope and all that enclose it, innermost first. -/
def chain : Scope → List Scope
  | .root data => [.root data]
  | .same enclosing => .same enclosing :: chain enclosing
  | .nested entry value shape enclosing => .nested entry value shape enclosing :: chain enclosing

/-! ### Names -/

/-- Reads a name from the current value alone. -/
def lookupMember (s : Scope) (m : Model) (name : String) : Except TypeError (Option Expression) :=
  m.findMember s.current name

/-- Reads a name from the first of some scopes that has it. -/
def lookupAmong (m : Model) (name : String) : List Scope → Except TypeError (Option Expression)
  | [] => .ok none
  | s :: rest => do
    match ← s.lookupMember m name with
    | some found => return some found
    | none => lookupAmong m name rest

/-- Reads a name from the innermost scope that has it. -/
def lookup (s : Scope) (m : Model) (name : String) : Except TypeError (Option Expression) :=
  lookupAmong m name s.chain

end Scope

end TypedMustache
