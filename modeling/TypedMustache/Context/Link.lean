import TypedMustache.Scope.Shape

/-! How a template tag refers to its value. -/

namespace TypedMustache

inductive Link where
  /-- The template itself. -/
  | root
  /-- The tag `{{name}}`. -/
  | escaped
  /-- The tags `{{{name}}}` and `{{& name}}`. -/
  | unescaped
  /-- The tag `{{#name}}`. -/
  | positive
  /-- The tag `{{^name}}`. -/
  | inverted
  /-- The tags `{{> name}}` and `{{< name}}`. -/
  | parent
  /-- A leading step of a dotted name. -/
  | path
  deriving DecidableEq, Repr

namespace Link

def label : Link → String
  | .root => "Root"
  | .escaped => "EscapedVar"
  | .unescaped => "UnescapedVar"
  | .positive => "Section"
  | .inverted => "Inverted"
  | .parent => "Parent"
  | .path => "Path"

/-- The link of the leading steps of a dotted name. -/
def leading : Link → Link
  | .inverted => .inverted
  | _ => .path

/-- How the leading steps of a dotted name are entered. -/
def leadingEntry (link : Link) : Entry :=
  if link.leading = .inverted then .invertedGuard else .guard

/-- How the value of a name is entered. A name links neither the template itself nor a
parent. -/
def entry? : Link → Option Entry
  | .escaped => some .plain
  | .unescaped => some .plain
  | .path => some .plain
  | .positive => some .positive
  | .inverted => some .inverted
  | .root => none
  | .parent => none

def isVariable : Link → Bool
  | .escaped => true
  | .unescaped => true
  | _ => false

end Link

end TypedMustache
