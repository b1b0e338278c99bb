import TypedMustache.Context.Error
import TypedMustache.Context.Generator
import TypedMustache.Scope.Basic

/-! The contexts of a template's tags. Each tag that names a value has a context, derived
from that of the tag around it. -/

namespace TypedMustache

/-- A context is detached at the root of a template and at a partial. All others have
the name they were resolved from and the context it was resolved in. -/
inductive Context where
  | detached (output : Output) (link : Link) (scope : Scope)
  | child (output : Output) (name : String) (parent : Context) (link : Link) (scope : Scope)

namespace Scope

/-- The outcome of looking for a name from a scope, where it has to be found. -/
def found (s : Scope) (name : String) :
    Except TypeError (Option Expression) → Except ContextError Expression
  | .error cause => .error (.invalidField name cause)
  | .ok none => .error (.fieldNotFound name s.current.type)
  | .ok (some value) => .ok value

/-- Enters a value that has been found and reads the later names of its path, each from
the value before it. -/
def descend (m : Model) (link : Link) (s : Scope) (value : Expression) :
    List String → Except ContextError Scope
  | [] =>
    match link.entry? with
    | some entry => .ok (s.enter m entry value)
    | none => .error (.illegalLink link)
  | name :: later => do
    let step := s.enter m link.leadingEntry value
    descend m link step (← step.found name (step.lookupMember m name)) later

/-- The scope that a dotted name leads to. Its first name is looked for outward. -/
def resolvePath (s : Scope) (m : Model) (path : String) (link : Link) :
    Except ContextError Scope :=
  match h : Path.segments path with
  | [] => .error (.internal path h)
  | first :: later => do
    let start := Scope.same s
    descend m link start (← start.found first (start.lookup m first)) later

/-- The scope of the current value itself. -/
def resolveCurrent (s : Scope) : Link → Except ContextError Scope
  | .inverted => .error .currentSectionInverted
  | .parent => .error .currentSectionParent
  | .root => .error .currentSectionParent
  | _ => .ok (.same s)

/-- The scope that a tag in this scope has. A parent's name is not looked up. -/
def resolve (s : Scope) (m : Model) (path : String) (link : Link) : Except ContextError Scope :=
  if path = Path.current then s.resolveCurrent link
  else if link = .parent then .ok (.same s)
  else s.resolvePath m path link

end Scope

namespace Context

def scope : Context → Scope
  | .detached _ _ scope => scope
  | .child _ _ _ _ scope => scope

def link : Context → Link
  | .detached _ link _ => link
  | .child _ _ _ link _ => link

/-- The writers and the generator of the context's code. -/
def output : Context → Output
  | .detached output _ _ => output
  | .child output _ _ _ _ => output

/-- The path that the context was resolved from. -/
def name? : Context → Option String
  | .detached _ _ _ => none
  | .child _ name _ _ _ => some name

def parent? : Context → Option Context
  | .detached _ _ _ => none
  | .child _ _ parent _ _ => some parent

def isEnclosed (c : Context) : Bool := c.parent?.isSome

def current (c : Context) : Expression := c.scope.current

/-- The writers of a template. -/
def writers (m : Model) : Writers := .ofConfig m.config

/-- The context of a template whose data has the given type. -/
def root (m : Model) (data : JavaType) (generator : Generator := .java) :
    Except ContextError Context :=
  match m.require data with
  | .error cause => .error (.invalidRoot cause)
  | .ok _ => .ok (.detached ⟨writers m, generator⟩ .root (.root (m.rootExpression data)))

/-- The context of a tag inside this one. -/
def getChild (c : Context) (m : Model) (path : String) (link : Link) :
    Except ContextError Context :=
  (c.scope.resolve m path link).map (.child c.output path c link)

/-- The context of a partial, which sees the same scope and is enclosed by nothing. -/
def forPartial (c : Context) : Context := .detached c.output .parent c.scope

end Context

end TypedMustache
